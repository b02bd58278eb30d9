/-
Module: CycleCost.Proofs.Digest
Purpose: What a digest in hexadecimal says about the text. Neither the digits nor the encoding of the text lose
  anything, so two texts of one digest are equal or a collision of the hash function.
Main exports: Digest.Collision, Digest.hex_eq_iff
-/
import CycleCost.Digest

namespace CycleCost.Digest

/-- Two different messages that a hash function does not tell apart. -/
structure Collision (hash : Hash) (message other : List UInt8) : Prop where
  differ : message ≠ other
  same : hash message = hash other

/-- The padded message determines the text. -/
theorem message_injective {text other : String} (h : message text = message other) : text = other := by
  apply String.toByteArray_inj.1
  exact ByteArray.ext (Array.toList_inj.1 h)

theorem digitChar_injective : ∀ m < 16, ∀ n < 16, Nat.digitChar m = Nat.digitChar n → m = n := by decide

/-- Two hexadecimal digits tell a byte. -/
theorem byteHex_injective {b c : UInt8} (h : byteHex b = byteHex c) : b = c := by
  have digits := List.cons.inj h
  have small (d : UInt8) : d.toNat / 16 < 16 := by have := d.toNat_lt; omega
  have high := digitChar_injective _ (small b) _ (small c) digits.1
  have low := digitChar_injective _ (Nat.mod_lt _ (by decide)) _ (Nat.mod_lt _ (by decide))
    (List.cons.inj digits.2).1
  apply UInt8.toNat_inj.1
  omega

/-- The hexadecimal digits determine the bytes. -/
theorem flatMap_byteHex_injective {bytes others : List UInt8}
    (h : bytes.flatMap byteHex = others.flatMap byteHex) : bytes = others := by
  induction bytes generalizing others with
  | nil =>
    cases others with
    | nil => rfl
    | cons c rest => cases h
  | cons b bytes ih =>
    cases others with
    | nil => cases h
    | cons c others =>
      obtain ⟨first, behind⟩ := List.append_inj h rfl
      rw [byteHex_injective first, ih behind]

/-- Texts have one digest exactly if they are equal or collide. -/
theorem hex_eq_iff {hash : Hash} {text other : String} :
    hex hash text = hex hash other ↔ text = other ∨ Collision hash (message text) (message other) := by
  constructor
  · intro same
    have hashes := flatMap_byteHex_injective (String.ofList_injective same)
    by_cases equal : text = other
    · exact .inl equal
    · exact .inr ⟨fun bytes => equal (message_injective bytes), hashes⟩
  · rintro (rfl | collision)
    · rfl
    · exact congrArg (fun bytes => String.ofList (bytes.flatMap byteHex)) collision.same

end CycleCost.Digest
