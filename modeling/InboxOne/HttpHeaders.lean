import Mathlib.Data.List.TakeWhile
import InboxOne.TextCodecs

/-!
HTTP header values. A value goes over the wire as Latin-1 bytes; what it says is read by
the grammar of Content-Disposition: a token and parameters, each a token or a quoted
string, among them the extended parameters whose value is percent-encoded.
-/
namespace HttpHeaders

/-- None where a character has no byte. -/
def latin1Encode (text : List Char) : Option (List UInt8) :=
  if text.all (fun c => decide (c.toNat ≤ 255)) then
    some (text.map fun c => UInt8.ofNat c.toNat)
  else none

def latin1Decode (bytes : List UInt8) : List Char := bytes.map fun b => Char.ofNat b.toNat

def isAlphanumeric (c : Char) : Bool :=
  (48 ≤ c.toNat && c.toNat ≤ 57) || (65 ≤ c.toNat && c.toNat ≤ 90) ||
    (97 ≤ c.toNat && c.toNat ≤ 122)

def isTokenChar (c : Char) : Bool := isAlphanumeric c || "!#$%&'*+-.^_`|~".toList.contains c

def isBlank (c : Char) : Bool := c == ' ' || c == '\t'

/-- What may stand behind a backslash in a quoted string. -/
def isQuotable (c : Char) : Bool :=
  c == '\t' || (32 ≤ c.toNat && c.toNat ≤ 126) || (128 ≤ c.toNat && c.toNat ≤ 255)

/-- What a quoted string holds without a backslash. -/
def isQuotedText (c : Char) : Bool := isQuotable c && c != '"' && c != '\\'

def skipBlanks (text : List Char) : List Char := text.dropWhile isBlank

def token (text : List Char) : Option (List Char × List Char) :=
  if text.takeWhile isTokenChar = [] then none
  else some (text.takeWhile isTokenChar, text.dropWhile isTokenChar)

/-- The rest of a quoted string and what follows its closing quote. -/
def quoted : List Char → Option (List Char × List Char)
  | [] => none
  | '"' :: rest => some ([], rest)
  | '\\' :: c :: rest =>
      if isQuotable c then (quoted rest).map fun found => (c :: found.1, found.2) else none
  | c :: rest =>
      if isQuotedText c then (quoted rest).map fun found => (c :: found.1, found.2) else none

def parameterValue : List Char → Option (List Char × List Char)
  | '"' :: rest => quoted rest
  | text => token text

structure Parameter where
  name : List Char
  value : List Char
  deriving DecidableEq, Repr

def parameter (text : List Char) : Option (Parameter × List Char) := do
  let (name, rest) ← token text
  let rest ← TextCodecs.expect '=' rest
  let (value, rest) ← parameterValue rest
  some (⟨name, value⟩, rest)

/-- The parameters up to the end; the fuel bounds their number. -/
def parameters : Nat → List Char → Option (List Parameter)
  | fuel, text =>
      match skipBlanks text with
      | [] => some []
      | c :: rest =>
          if c = ';' then
            match fuel with
            | 0 => none
            | fuel + 1 => do
                let (first, rest) ← parameter (skipBlanks rest)
                let others ← parameters fuel rest
                some (first :: others)
          else none

structure Disposition where
  kind : List Char
  parameters : List Parameter
  deriving DecidableEq, Repr

def readDisposition (value : List UInt8) : Option Disposition := do
  let (kind, rest) ← token (latin1Decode value)
  let found ← parameters rest.length rest
  some ⟨kind, found⟩

def hexValue (c : Char) : Option Nat :=
  if 48 ≤ c.toNat ∧ c.toNat ≤ 57 then some (c.toNat - 48)
  else if 65 ≤ c.toNat ∧ c.toNat ≤ 70 then some (c.toNat - 55)
  else if 97 ≤ c.toNat ∧ c.toNat ≤ 102 then some (c.toNat - 87)
  else none

def isAttributeChar (c : Char) : Bool := isAlphanumeric c || "!#$&+-.^_`|~".toList.contains c

def percentDecode : List Char → Option (List UInt8)
  | [] => some []
  | '%' :: high :: low :: rest => do
      let byte := 16 * (← hexValue high) + (← hexValue low)
      let others ← percentDecode rest
      some (UInt8.ofNat byte :: others)
  | c :: rest =>
      if isAttributeChar c then (percentDecode rest).map (UInt8.ofNat c.toNat :: ·) else none

def lowerCase (text : List Char) : List Char := text.map Char.toLower

def apostrophe : Char := Char.ofNat 39

/-- Charset, language and value, with apostrophes between them. -/
def extendedValue (text : List Char) : Option (List Char) := do
  let (charset, rest) ← TextCodecs.readUntil apostrophe text
  let (_, rest) ← TextCodecs.readUntil apostrophe rest
  let bytes ← percentDecode rest
  if lowerCase charset = "utf-8".toList then (String.fromUTF8? ⟨bytes.toArray⟩).map String.toList
  else if lowerCase charset = "iso-8859-1".toList then some (latin1Decode bytes)
  else none

/-- The file name that a parameter gives, by either spelling of it. -/
def fileName (p : Parameter) : Option (List Char) :=
  if lowerCase p.name = "filename".toList then some p.value
  else if lowerCase p.name = "filename*".toList then extendedValue p.value
  else none

theorem latin1_encode_iff {text : List Char} {bytes : List UInt8} :
    latin1Encode text = some bytes ↔ (∀ c ∈ text, c.toNat ≤ 255) ∧
      bytes = text.map fun c => UInt8.ofNat c.toNat := by
  simp only [latin1Encode, List.all_eq_true, decide_eq_true_eq]
  split
  · rename_i small
    rw [Option.some.injEq, eq_comm]
    exact ⟨fun same => ⟨small, same⟩, fun both => both.2⟩
  · rename_i large
    constructor
    · intro none
      contradiction
    · exact fun both => absurd both.1 large

/-- What was encoded is read back. -/
theorem latin1_round {text : List Char} {bytes : List UInt8}
    (encoded : latin1Encode text = some bytes) : latin1Decode bytes = text := by
  obtain ⟨small, rfl⟩ := latin1_encode_iff.mp encoded
  rw [latin1Decode, List.map_map]
  have each : ∀ c ∈ text, ((fun b : UInt8 => Char.ofNat b.toNat) ∘
      fun c : Char => UInt8.ofNat c.toNat) c = c := by
    intro c mem
    have bound := small c mem
    have byte : (UInt8.ofNat c.toNat).toNat = c.toNat := by
      rw [UInt8.toNat_ofNat']
      omega
    show Char.ofNat (UInt8.ofNat c.toNat).toNat = c
    rw [byte, Char.ofNat_toNat]
  exact (List.map_congr_left each).trans (List.map_id text)

theorem quoted_text_plain {c : Char} (plain : isQuotedText c = true) :
    isQuotable c = true ∧ c ≠ '"' ∧ c ≠ '\\' := by
  simp only [isQuotedText, Bool.and_eq_true, bne_iff_ne, ne_eq] at plain
  exact ⟨plain.1.1, plain.1.2, plain.2⟩

theorem quoted_close (rest : List Char) : quoted ('"' :: rest) = some ([], rest) := by
  rw [quoted]

theorem quoted_pair (c : Char) (rest : List Char) : quoted ('\\' :: c :: rest) =
    if isQuotable c then (quoted rest).map fun found => (c :: found.1, found.2) else none := by
  rw [quoted]

theorem quoted_char {c : Char} (quote : c ≠ '"') (backslash : c ≠ '\\') (rest : List Char) :
    quoted (c :: rest) =
      if isQuotedText c then (quoted rest).map fun found => (c :: found.1, found.2) else none := by
  rw [quoted]
  · exact quote
  · intro _ _ same
    exact absurd same backslash

/-- A body without quotes, backslashes and controls is read as it is. -/
theorem quoted_complete {body : List Char} (plain : ∀ c ∈ body, isQuotedText c = true)
    (rest : List Char) : quoted (body ++ '"' :: rest) = some (body, rest) := by
  induction body with
  | nil => exact quoted_close rest
  | cons c body ih =>
    have first := plain c List.mem_cons_self
    obtain ⟨_, quote, backslash⟩ := quoted_text_plain first
    have read := ih fun d mem => plain d (List.mem_cons_of_mem _ mem)
    rw [List.cons_append, quoted_char quote backslash, if_pos first, read]
    rfl

/-- How a body with quoted pairs is spelled. -/
inductive Spells : List Char → List Char → Prop where
  | nil : Spells [] []
  | plain {c : Char} {body value : List Char} (text : isQuotedText c = true)
      (tail : Spells body value) : Spells (c :: body) (c :: value)
  | pair {c : Char} {body value : List Char} (text : isQuotable c = true)
      (tail : Spells body value) : Spells ('\\' :: c :: body) (c :: value)

theorem quoted_sound {text value rest : List Char} (read : quoted text = some (value, rest)) :
    ∃ body, text = body ++ '"' :: rest ∧ Spells body value := by
  induction text using quoted.induct generalizing value with
  | case1 =>
    rw [quoted] at read
    contradiction
  | case2 after =>
    rw [quoted_close] at read
    cases read
    exact ⟨[], rfl, Spells.nil⟩
  | case3 c after quotable ih =>
    rw [quoted_pair, if_pos quotable] at read
    obtain ⟨⟨value', rest'⟩, inner, same⟩ := Option.map_eq_some_iff.mp read
    cases same
    obtain ⟨body, rfl, spells⟩ := ih inner
    exact ⟨'\\' :: c :: body, rfl, Spells.pair quotable spells⟩
  | case4 c after odd =>
    rw [quoted_pair, if_neg odd] at read
    contradiction
  | case5 c after quote alone plain ih =>
    obtain ⟨_, _, backslash⟩ := quoted_text_plain plain
    rw [quoted_char quote backslash, if_pos plain] at read
    obtain ⟨⟨value', rest'⟩, inner, same⟩ := Option.map_eq_some_iff.mp read
    cases same
    obtain ⟨body, rfl, spells⟩ := ih inner
    exact ⟨c :: body, rfl, Spells.plain plain spells⟩
  | case6 c after quote alone odd =>
    rw [quoted, if_neg odd] at read
    · contradiction
    · exact quote
    · exact alone

section Kept
variable {P : Char → Bool} {body value : List Char}

/-- A quoted pair loses its backslash. -/
theorem spells_shorter (spells : Spells body value) :
    (value.filter P).length ≤ (body.filter P).length := by
  induction spells with
  | nil => exact Nat.le_refl _
  | @plain c body value text tail ih =>
    simp only [List.filter_cons]
    split
    · simp only [List.length_cons]
      omega
    · exact ih
  | @pair c body value text tail ih =>
    have marked : ((c :: body).filter P).length ≤ (('\\' :: c :: body).filter P).length :=
      ((List.sublist_cons_self '\\' (c :: body)).filter P).length_le
    refine Nat.le_trans ?_ marked
    simp only [List.filter_cons]
    split
    · simp only [List.length_cons]
      omega
    · exact ih

theorem spells_same (backslash : P '\\' = true) (spells : Spells body value)
    (same : (value.filter P).length = (body.filter P).length) :
    value = body ∧ ∀ c ∈ body, isQuotedText c = true := by
  induction spells with
  | nil => simp
  | @plain c body value text tail ih =>
    have rest : (value.filter P).length = (body.filter P).length := by
      simp only [List.filter_cons] at same
      split at same
      · simpa using same
      · exact same
    obtain ⟨equal, plain⟩ := ih rest
    exact ⟨by rw [equal], List.forall_mem_cons.mpr ⟨text, plain⟩⟩
  | @pair c body value text tail ih =>
    have shorter := spells_shorter (P := P) tail
    simp only [List.filter_cons, backslash, if_true] at same
    split at same
    · simp only [List.length_cons] at same
      omega
    · simp only [List.length_cons] at same
      omega

end Kept

theorem skip_blanks_nil_iff {text : List Char} :
    skipBlanks text = [] ↔ ∀ c ∈ text, isBlank c = true := by
  rw [skipBlanks, List.dropWhile_eq_nil_iff]

/-- Nothing but blanks follows the last parameter. -/
theorem parameters_nil_iff {fuel : Nat} {text : List Char} :
    parameters fuel text = some [] ↔ ∀ c ∈ text, isBlank c = true := by
  rw [← skip_blanks_nil_iff, parameters.eq_def]
  cases found : skipBlanks text with
  | nil => simp only [found]
  | cons c rest =>
    simp only [found, reduceCtorEq, iff_false]
    split
    · cases fuel with
      | zero => exact nofun
      | succ fuel =>
        intro read
        obtain ⟨_, _, read⟩ := Option.bind_eq_some_iff.mp read
        obtain ⟨_, _, read⟩ := Option.bind_eq_some_iff.mp read
        cases read
    · exact nofun

end HttpHeaders
