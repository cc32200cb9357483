import InboxOne.MailParser
import InboxOne.OrderedTrees
import InboxOne.TextCodecs

/-!
Parsing of a full message. The email package gives the tree of its parts, each with what
its accessors answer, and chooses and decodes the bodies.
-/
namespace InboxMailParts
open OrderedTrees InboxPython InboxMailbox InboxMailParser

/-- What the accessors of one part answer; `payload` is `get_payload(decode=True)` of a
    part that is no container. -/
structure PartFields where
  contentDisposition : Option String
  filename : Option String
  contentType : String
  contentId : Option String
  payload : Option Bytes
  deriving DecidableEq, Repr

abbrev Part := RoseTree PartFields

/- `is_multipart` of a part. -/
def isMultipart (part : Part) : Bool := !part.isLeaf

/- `get_payload(decode=True)`, which is None for a container, `or b""`. -/
def payload : Part → Bytes
  | .leaf fields => fields.payload.getD []
  | .node _ _ => []

structure MessagePackage (Msg : Type) extends EmailPackage Msg where
  parseMessage : Bytes → Part
  getBody : Part → String → Option Part
  getContent : Part → Except PyException String

structure AttachmentMeta where
  partIndex : String
  filename : Option String
  contentType : String
  size : Nat
  contentId : Option String
  deriving DecidableEq, Repr

structure FullMessage extends ParsedHeader where
  textBody : Option String
  htmlBody : Option String
  attachments : List AttachmentMeta
  deriving DecidableEq, Repr

/- `(part.get_content_disposition() or "").lower()`. No letter outside ASCII lowers to a
   letter of the two words that it is compared with. -/
def disposition (part : Part) : List Char :=
  (part.value.contentDisposition.getD "").toList.map Char.toLower

def hasFilename (part : Part) : Bool := part.value.filename.getD "" != ""

/-- The test that `_iter_attachment_parts` makes of a part that is no container. -/
def isAttachment (part : Part) : Bool :=
  disposition part == "attachment".toList ||
    (hasFilename part && disposition part != "inline".toList)

/-- `_iter_attachment_parts`, for the parts of the walk that are left; containers do not
    count. -/
def iterAttachmentParts (index : Nat) : List Part → List (Nat × Part)
  | [] => []
  | part :: rest =>
      if isMultipart part then iterAttachmentParts index rest
      else if isAttachment part then (index, part) :: iterAttachmentParts (index + 1) rest
      else iterAttachmentParts (index + 1) rest

/- `str(index)`. -/
def str (index : Nat) : String := String.ofList (TextCodecs.decimal index)

def attachmentMeta (entry : Nat × Part) : AttachmentMeta where
  partIndex := str entry.1
  filename := entry.2.value.filename
  contentType := entry.2.value.contentType
  size := (payload entry.2).length
  contentId := entry.2.value.contentId

variable {Msg : Type} (mail : MessagePackage Msg)

def bodyContent (msg : Part) (kind : String) : Except PyException (Option String) :=
  match mail.getBody msg kind with
  | none => .ok none
  | some part => (mail.getContent part).map some

def attachmentsOf (raw : Bytes) : List (Nat × Part) :=
  iterAttachmentParts 0 (walk (mail.parseMessage raw))

def parseFullMessage (raw : Bytes) : Except PyException FullMessage := do
  let msg := mail.parseMessage raw
  let header ← parseHeaderBlock mail.toEmailPackage raw
  let textBody ← bodyContent mail msg "plain"
  let htmlBody ← bodyContent mail msg "html"
  return { header with
    textBody := textBody
    htmlBody := htmlBody
    attachments := (attachmentsOf mail raw).map attachmentMeta }

def extractAttachmentBytes (raw : Bytes) (partIndex : String) :
    Except PyException (Bytes × String × Option String) :=
  match (attachmentsOf mail raw).find? fun entry => str entry.1 = partIndex with
  | some (_, part) => .ok (payload part, part.value.contentType, part.value.filename)
  | none => .error (.valueError ("Attachment part " ++ partIndex ++ " not found"))

theorem str_injective {a b : Nat} (same : str a = str b) : a = b := by
  have digits : TextCodecs.decimal a = TextCodecs.decimal b := String.ofList_injective same
  have read : some a = some b := by
    rw [← TextCodecs.read_decimal a, ← TextCodecs.read_decimal b, digits]
  exact Option.some.inj read

/-- The generator numbers the parts upwards. -/
theorem iter_from {index : Nat} {parts : List Part} :
    ∀ entry ∈ iterAttachmentParts index parts, index ≤ entry.1 := by
  induction parts generalizing index with
  | nil => simp [iterAttachmentParts]
  | cons part rest ih =>
    intro entry mem
    simp only [iterAttachmentParts] at mem
    split at mem
    · exact ih entry mem
    · have later : entry ∈ iterAttachmentParts (index + 1) rest → index ≤ entry.1 := by
        intro inside
        have bound := ih entry inside
        omega
      split at mem
      · rcases List.mem_cons.mp mem with rfl | inside
        · exact Nat.le_refl _
        · exact later inside
      · exact later mem

theorem iter_numbers_nodup (index : Nat) (parts : List Part) :
    ((iterAttachmentParts index parts).map Prod.fst).Nodup := by
  induction parts generalizing index with
  | nil => exact List.nodup_nil
  | cons part rest ih =>
    simp only [iterAttachmentParts]
    split
    · exact ih index
    · split
      · refine List.nodup_cons.mpr ⟨?_, ih (index + 1)⟩
        intro mem
        obtain ⟨entry, inside, same⟩ := List.mem_map.mp mem
        have bound := iter_from entry inside
        omega
      · exact ih (index + 1)

/-- Without the numbers, the generator filters the walk. -/
theorem iter_parts (index : Nat) (parts : List Part) :
    (iterAttachmentParts index parts).map Prod.snd =
      parts.filter fun part => part.isLeaf && isAttachment part := by
  induction parts generalizing index with
  | nil => rfl
  | cons part rest ih =>
    simp only [iterAttachmentParts, isMultipart]
    by_cases leaf : part.isLeaf = true
    · by_cases attached : isAttachment part = true
      · simp [leaf, attached, ih]
      · simp [leaf, attached, ih]
    · simp [leaf, ih]

theorem indices_nodup (raw : Bytes) :
    ((attachmentsOf mail raw).map fun entry => str entry.1).Nodup := by
  have numbers := iter_numbers_nodup 0 (walk (mail.parseMessage raw))
  have named := numbers.map (fun _ _ => str_injective)
  rw [List.map_map] at named
  exact named

variable {mail}

/-- The index of a listed part finds that part again. -/
theorem extract_listed {raw : Bytes} {entry : Nat × Part} (listed : entry ∈ attachmentsOf mail raw) :
    extractAttachmentBytes mail raw (str entry.1) =
      .ok (payload entry.2, entry.2.value.contentType, entry.2.value.filename) := by
  have found : (attachmentsOf mail raw).find? (fun other => str other.1 = str entry.1) =
      some entry := by
    cases result : (attachmentsOf mail raw).find? (fun other => str other.1 = str entry.1) with
    | none =>
      have none := List.find?_eq_none.mp result entry listed
      simp at none
    | some other =>
      have same : str other.1 = str entry.1 := by simpa using List.find?_some result
      have mem := List.mem_of_find?_eq_some result
      rw [List.inj_on_of_nodup_map (indices_nodup mail raw) mem listed same]
  rw [extractAttachmentBytes, found]

theorem extract_unlisted {raw : Bytes} {index : String}
    (unlisted : index ∉ (attachmentsOf mail raw).map fun entry => str entry.1) :
    extractAttachmentBytes mail raw index =
      .error (.valueError ("Attachment part " ++ index ++ " not found")) := by
  have missing : (attachmentsOf mail raw).find? (fun entry => str entry.1 = index) = none := by
    refine List.find?_eq_none.mpr fun entry mem same => unlisted ?_
    exact List.mem_map.mpr ⟨entry, mem, of_decide_eq_true same⟩
  rw [extractAttachmentBytes, missing]

/-- Every step of `parse_full_message` that can raise. -/
theorem parse_full_ok_iff {raw : Bytes} {detail : FullMessage} :
    parseFullMessage mail raw = .ok detail ↔
      ∃ header textBody htmlBody, parseHeaderBlock mail.toEmailPackage raw = .ok header ∧
        bodyContent mail (mail.parseMessage raw) "plain" = .ok textBody ∧
        bodyContent mail (mail.parseMessage raw) "html" = .ok htmlBody ∧
        detail = { header with
          textBody := textBody
          htmlBody := htmlBody
          attachments := (attachmentsOf mail raw).map attachmentMeta } := by
  simp only [parseFullMessage]
  cases parseHeaderBlock mail.toEmailPackage raw with
  | error e => simp [bind, Except.bind]
  | ok header =>
    cases bodyContent mail (mail.parseMessage raw) "plain" with
    | error e => simp [bind, Except.bind]
    | ok textBody =>
      cases bodyContent mail (mail.parseMessage raw) "html" with
      | error e => simp [bind, Except.bind]
      | ok htmlBody =>
        simp only [bind, Except.bind, pure, Except.pure, Except.ok.injEq]
        constructor
        · intro same
          exact ⟨header, textBody, htmlBody, rfl, rfl, rfl, same.symm⟩
        · rintro ⟨_, _, _, rfl, rfl, rfl, same⟩
          exact same.symm

end InboxMailParts
