import InboxOne.IsoDates
import InboxOne.JsonText

/- The page cursor: the JSON list of a date and an id, as URL-safe base64. -/
namespace InboxCursor
open InboxPython InboxIsoDates JsonText TextCodecs

def dateJson : Option Datetime → List Char
  | none => ['n', 'u', 'l', 'l']
  | some date => dumpsString (String.ofList (isoformat date))

def cursorPayload (dateSent : Option Datetime) (messageId : Nat) : String :=
  String.ofList ('[' :: dateJson dateSent ++ ',' :: ' ' :: decimal messageId ++ [']'])

/-- `_encode_cursor`. -/
def encodeCursor (dateSent : Option Datetime) (messageId : Nat) : String :=
  String.ofList (base64 (cursorPayload dateSent messageId).toUTF8.data.toList)

/-- The date of a payload and what follows it; an empty text is no date. -/
def readDateJson : List Char → Option (Option Datetime × List Char)
  | '"' :: rest => do
      let (text, rest) ← readUntil '"' rest
      if text = [] then some (none, rest)
      else
        let date ← fromisoformat text
        some (some date, rest)
  | 'n' :: 'u' :: 'l' :: 'l' :: rest => some (none, rest)
  | _ => none

def readPayload (cs : List Char) : Option (Option Datetime × Nat) := do
  let rest ← expect '[' cs
  let (date, rest) ← readDateJson rest
  let rest ← expect ',' rest
  let rest ← expect ' ' rest
  let (digits, rest) ← readUntil ']' rest
  let messageId ← readDigits digits
  if rest = [] then some (date, messageId) else none

/-- `_decode_cursor` on the texts that `encodeCursor` writes; Python accepts further
spellings of the same payload, which no page ever names. -/
def decodeCursor (cursor : String) : Option (Option Datetime × Nat) := do
  let bytes ← unbase64 cursor.toList
  let payload ← String.fromUTF8? ⟨bytes.toArray⟩
  readPayload payload.toList

theorem from_utf8_to_utf8 (s : String) : String.fromUTF8? ⟨s.toUTF8.data.toList.toArray⟩ = some s := by
  have same : (⟨s.toUTF8.data.toList.toArray⟩ : ByteArray) = s.toByteArray := by
    rw [Array.toArray_toList]
    rfl
  rw [same, String.fromUTF8?, dif_pos s.isValidUTF8]
  rfl

/-- A character that JSON writes as itself. -/
def Plain (c : Char) : Prop := escapeChar c = [c]

theorem digits_plain : ∀ d < 10, Plain (digitChar d) := by
  intro d small
  interval_cases d <;> rfl

theorem date_marks_plain : ∀ c ∈ ['-', ':', '.', '+', 'T'], Plain c := by
  intro c mem
  simp only [List.mem_cons, List.not_mem_nil, or_false] at mem
  rcases mem with rfl | rfl | rfl | rfl | rfl <;> rfl

theorem escape_plain {cs : List Char} (plain : ∀ c ∈ cs, Plain c) : cs.flatMap escapeChar = cs := by
  induction cs with
  | nil => rfl
  | cons c cs ih =>
    have first : escapeChar c = [c] := plain c List.mem_cons_self
    rw [List.flatMap_cons, first, ih fun d mem => plain d (List.mem_cons_of_mem _ mem)]
    rfl

theorem plain_not_quote {cs : List Char} (plain : ∀ c ∈ cs, Plain c) : '"' ∉ cs := by
  intro mem
  have escaped : escapeChar '"' = ['"'] := plain '"' mem
  exact absurd escaped (by decide)

theorem read_date_json (date : Option Datetime) (rest : List Char) :
    readDateJson (dateJson date ++ rest) = some (date, rest) := by
  cases date with
  | none => rfl
  | some date =>
    have plain : ∀ c ∈ isoformat date, Plain c :=
      isoformat_chars digits_plain date_marks_plain date
    have nonempty : isoformat date ≠ [] := by
      intro empty
      have back := fromisoformat_isoformat date
      rw [empty] at back
      contradiction
    simp only [dateJson, dumpsString, String.toList_ofList, escape_plain plain, List.cons_append,
      List.append_assoc, List.nil_append, readDateJson,
      read_until_append (plain_not_quote plain), Option.bind_eq_bind, Option.bind_some,
      if_neg nonempty, fromisoformat_isoformat]

theorem decimal_not_bracket (n : Nat) : ']' ∉ decimal n := by
  intro mem
  have digit := decimal_chars (P := fun c => c ≠ ']')
    (by intro d small; interval_cases d <;> decide) n ']' mem
  exact digit rfl

/- Whatever pair is written, the same pair is read. -/
theorem decode_encode_cursor (dateSent : Option Datetime) (messageId : Nat) :
    decodeCursor (encodeCursor dateSent messageId) = some (dateSent, messageId) := by
  have payload : readPayload (cursorPayload dateSent messageId).toList =
      some (dateSent, messageId) := by
    simp only [cursorPayload, String.toList_ofList, List.cons_append, List.append_assoc,
      readPayload, expect_cons, read_date_json, read_until_append (decimal_not_bracket messageId),
      read_decimal, Option.bind_eq_bind, Option.bind_some, if_true]
  simp only [decodeCursor, encodeCursor, String.toList_ofList, unbase64_base64, from_utf8_to_utf8,
    Option.bind_eq_bind, Option.bind_some, payload]

theorem cursor_nonempty (dateSent : Option Datetime) (messageId : Nat) :
    encodeCursor dateSent messageId ≠ "" := by
  intro empty
  have back := decode_encode_cursor dateSent messageId
  rw [empty] at back
  contradiction

end InboxCursor
