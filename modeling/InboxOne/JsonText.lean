import Mathlib.Data.List.Basic

/- The ASCII-only JSON text that json.dumps writes with its default settings. -/
namespace JsonText

def hexDigit (n : Nat) : Char := "0123456789abcdef".toList.getD n '0'

def unicodeEscape (unit : Nat) : List Char :=
  ['\\', 'u', hexDigit (unit / 4096 % 16), hexDigit (unit / 256 % 16),
    hexDigit (unit / 16 % 16), hexDigit (unit % 16)]

/- Characters outside the basic plane become a surrogate pair. -/
def escapeChar (c : Char) : List Char :=
  if c = '"' then ['\\', '"']
  else if c = '\\' then ['\\', '\\']
  else if c = '\n' then ['\\', 'n']
  else if c = '\r' then ['\\', 'r']
  else if c = '\t' then ['\\', 't']
  else if c.toNat = 8 then ['\\', 'b']
  else if c.toNat = 12 then ['\\', 'f']
  else if 32 ≤ c.toNat ∧ c.toNat ≤ 126 then [c]
  else if c.toNat < 65536 then unicodeEscape c.toNat
  else
    unicodeEscape (55296 + (c.toNat - 65536) / 1024) ++
      unicodeEscape (56320 + (c.toNat - 65536) % 1024)

def dumpsString (s : String) : List Char := '"' :: s.toList.flatMap escapeChar ++ ['"']

/- A list of strings, items separated by a comma and a blank. -/
def dumpsStrings (items : List String) : String :=
  String.ofList ('[' :: (List.intercalate [',', ' '] (items.map dumpsString)) ++ [']'])

example : dumpsStrings ["a@b.c", "q\"x"] = "[\"a@b.c\", \"q\\\"x\"]" := by decide

end JsonText
