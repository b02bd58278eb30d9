/-
Module: CycleCost.Text.Inspected
Purpose: Texts as they are shown to someone who looks into a value: in quotes, and with every character that
  cannot be shown by itself spelled out.
Main exports: Text.inspected
-/
import CycleCost.Text.Unprintable

namespace CycleCost.Text

def codePoint (c : Char) : List Char :=
  ['\\', 'u', '\x7b'] ++ Nat.toDigits 16 c.toNat ++ ['\x7d']

def inspectedChar (c : Char) : List Char :=
  if c = '"' then ['\\', '"']
  else if c = '\\' then ['\\', '\\']
  else if c = '\n' then ['\\', 'n']
  else if c = '\r' then ['\\', 'r']
  else if c = '\t' then ['\\', 't']
  else if c = '\x00' then ['\\', '0']
  else if isUnprintable c then codePoint c
  else [c]

def inspected (s : String) : String := String.ofList ('"' :: s.toList.flatMap inspectedChar ++ ['"'])

end CycleCost.Text
