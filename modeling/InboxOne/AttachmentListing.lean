import InboxOne.MailParts

/-!
Which parts of a message the reading pane lists and the download route finds. The parts
that count are named by their places in the tree, without the walk of the code.
-/
namespace InboxAttachmentListing
open OrderedTrees InboxPython InboxMailbox InboxMailParser InboxMailParts

def MarkedAttachment (part : Part) : Prop := disposition part = "attachment".toList

def IsMessage (part : Part) : Prop := part.value.contentType = "message/rfc822"

instance (part : Part) : Decidable (MarkedAttachment part) :=
  inferInstanceAs (Decidable (disposition part = "attachment".toList))

instance (part : Part) : Decidable (IsMessage part) :=
  inferInstanceAs (Decidable (part.value.contentType = "message/rfc822"))

/-- A part that a reader of the message takes for an attachment. -/
def Wanted (part : Part) : Prop :=
  ((part.isLeaf = true ∨ IsMessage part) ∧ MarkedAttachment part) ∨
    (part.isLeaf = true ∧ hasFilename part = true ∧ disposition part ≠ "inline".toList)

instance (part : Part) : Decidable (Wanted part) :=
  inferInstanceAs (Decidable (_ ∨ _))

variable {Msg : Type} (mail : MessagePackage Msg)

/-- The entry tells of the part, and its index downloads the part. -/
structure Describes (raw : Bytes) (entry : AttachmentMeta) (part : Part) : Prop where
  filename : entry.filename = part.value.filename
  contentType : entry.contentType = part.value.contentType
  contentId : entry.contentId = part.value.contentId
  size : entry.size = (payload part).length
  download : extractAttachmentBytes mail raw entry.partIndex =
    .ok (payload part, entry.contentType, entry.filename)

/-- One entry for each place of a wanted part, and an index for each entry. -/
structure ListsAttachments (raw : Bytes) (entries : List AttachmentMeta) : Prop where
  complete : ∃ wanted : List (List Nat), wanted.Nodup ∧
    (∀ place, place ∈ wanted ↔
      ∃ part, subtree (mail.parseMessage raw) place = some part ∧ Wanted part) ∧
    List.Forall₂ (fun entry place =>
      ∃ part, subtree (mail.parseMessage raw) place = some part ∧ Describes mail raw entry part)
      entries wanted
  distinct : (entries.map AttachmentMeta.partIndex).Nodup
  others : ∀ index ∉ entries.map AttachmentMeta.partIndex,
    ∃ text, extractAttachmentBytes mail raw index = .error (.valueError text)

/-- The email package can read the headers and the bodies of the message. -/
structure Readable (raw : Bytes) : Prop where
  header : ∃ header, parseHeaderBlock mail.toEmailPackage raw = .ok header
  bodies : ∀ kind ∈ ["plain", "html"], ∀ part,
    mail.getBody (mail.parseMessage raw) kind = some part → ∃ text, mail.getContent part = .ok text

/-- An attached message, which the email package treats as a container. -/
def HiddenMessage (part : Part) : Prop :=
  part.isLeaf = false ∧ IsMessage part ∧ MarkedAttachment part

theorem listed_wanted {part : Part} (leaf : part.isLeaf = true) :
    isAttachment part = true ↔ Wanted part := by
  simp only [isAttachment, Wanted, MarkedAttachment, leaf, true_or, true_and, Bool.or_eq_true,
    Bool.and_eq_true, beq_iff_eq, bne_iff_ne, ne_eq]

/-- A wanted part is a leaf or a hidden message. -/
theorem wanted_iff {part : Part} :
    Wanted part ↔ (part.isLeaf && isAttachment part) = true ∨ HiddenMessage part := by
  cases leaf : part.isLeaf with
  | true => simp [HiddenMessage, leaf, listed_wanted]
  | false => simp [HiddenMessage, Wanted, leaf]

variable {mail} {raw : Bytes}

def wantedAt (msg : Part) (place : List Nat) : Bool :=
  (subtree msg place).any fun part => decide (Wanted part)

theorem wanted_at_iff {msg : Part} {place : List Nat} :
    wantedAt msg place = true ↔ ∃ part, subtree msg place = some part ∧ Wanted part := by
  simp [wantedAt, Option.any_eq_true]

theorem wanted_places_iff {msg : Part} {place : List Nat} :
    place ∈ (places msg).filter (wantedAt msg) ↔
      ∃ part, subtree msg place = some part ∧ Wanted part := by
  rw [List.mem_filter, wanted_at_iff, mem_places_iff]
  constructor
  · exact fun both => both.2
  · exact fun found => ⟨⟨found.choose, found.choose_spec.1⟩, found⟩

theorem wanted_walk_length (msg : Part) :
    ((walk msg).filter fun part => decide (Wanted part)).length =
      ((places msg).filter (wantedAt msg)).length := by
  have filtered : List.Forall₂ (fun part place => subtree msg place = some part)
      ((walk msg).filter fun part => decide (Wanted part)) ((places msg).filter (wantedAt msg)) := by
    refine List.rel_filter ?_ (walk_at_places msg)
    intro part place found
    simp [wantedAt, found]
  exact filtered.length_eq

/-- A hidden message is wanted, but the generator leaves it out. -/
theorem hidden_shortens {msg part : Part} {place : List Nat} (found : subtree msg place = some part)
    (hidden : HiddenMessage part) :
    (iterAttachmentParts 0 (walk msg)).length < ((places msg).filter (wantedAt msg)).length := by
  rw [← wanted_walk_length, ← List.length_map Prod.snd, iter_parts]
  have inner : (walk msg).filter (fun part => part.isLeaf && isAttachment part) =
      ((walk msg).filter fun part => decide (Wanted part)).filter
        fun part => part.isLeaf && isAttachment part := by
    rw [List.filter_filter]
    refine List.filter_congr fun other _ => ?_
    by_cases listed : (other.isLeaf && isAttachment other) = true
    · simp [listed, wanted_iff.mpr (Or.inl listed)]
    · simp only [Bool.not_eq_true] at listed
      simp [listed]
  rw [inner, List.length_filter_lt_length_iff_exists]
  refine ⟨part, List.mem_filter.mpr ⟨mem_walk_iff.mpr ⟨place, found⟩, ?_⟩, ?_⟩
  · exact decide_eq_true (wanted_iff.mpr (Or.inr hidden))
  · simp [hidden.1]

/-- Without hidden messages the generator meets just the wanted places. -/
theorem visible_at_places {msg : Part}
    (visible : ∀ place part, subtree msg place = some part → ¬ HiddenMessage part) :
    AtPlaces msg ((iterAttachmentParts 0 (walk msg)).map Prod.snd)
      ((places msg).filter (wantedAt msg)) := by
  rw [iter_parts]
  refine List.rel_filter ?_ (walk_at_places msg)
  intro part place found
  refine Iff.trans ?_ wanted_at_iff.symm
  constructor
  · exact fun listed => ⟨part, found, wanted_iff.mpr (Or.inl listed)⟩
  · rintro ⟨other, same, wanted⟩
    cases found.symm.trans same
    rcases wanted_iff.mp wanted with listed | hidden
    · exact listed
    · exact absurd hidden (visible place part found)

theorem meta_describes {entry : Nat × Part} (listed : entry ∈ attachmentsOf mail raw) :
    Describes mail raw (attachmentMeta entry) entry.2 where
  filename := rfl
  contentType := rfl
  contentId := rfl
  size := rfl
  download := extract_listed listed

theorem visible_lists
    (visible : ∀ place part, subtree (mail.parseMessage raw) place = some part →
      ¬ HiddenMessage part) :
    ListsAttachments mail raw ((attachmentsOf mail raw).map attachmentMeta) where
  complete := by
    refine ⟨_, (places_nodup _).filter _, fun _ => wanted_places_iff, ?_⟩
    rw [List.forall₂_map_left_iff]
    have all : ∀ entry ∈ attachmentsOf mail raw, entry ∈ attachmentsOf mail raw := fun _ mem => mem
    have aligned := List.forall₂_map_left_iff.mp (visible_at_places visible)
    refine ((List.forall₂_and_left _ _).mpr ⟨all, aligned⟩).imp ?_
    rintro entry place ⟨listed, found⟩
    exact ⟨entry.2, found, meta_describes listed⟩
  distinct := by
    rw [List.map_map]
    exact indices_nodup mail raw
  others := by
    intro index unlisted
    rw [List.map_map] at unlisted
    exact ⟨_, extract_unlisted unlisted⟩

theorem lists_visible {entries : List AttachmentMeta}
    (count : entries.length = (attachmentsOf mail raw).length)
    (lists : ListsAttachments mail raw entries) {place : List Nat} {part : Part}
    (found : subtree (mail.parseMessage raw) place = some part) : ¬ HiddenMessage part := by
  intro hidden
  obtain ⟨wanted, nodup, exact, described⟩ := lists.complete
  have same : wanted.Perm ((places (mail.parseMessage raw)).filter
      (wantedAt (mail.parseMessage raw))) := by
    refine (List.perm_ext_iff_of_nodup nodup ((places_nodup _).filter _)).mpr fun other => ?_
    rw [exact, wanted_places_iff]
  have shorter := hidden_shortens found hidden
  have length := described.length_eq
  rw [same.length_eq, count, attachmentsOf] at length
  omega

theorem body_content_ok_iff {msg : Part} {kind : String} :
    (∃ text, bodyContent mail msg kind = .ok text) ↔
      ∀ part, mail.getBody msg kind = some part → ∃ text, mail.getContent part = .ok text := by
  simp only [bodyContent]
  cases mail.getBody msg kind with
  | none => simp
  | some part =>
    cases content : mail.getContent part with
    | error e => simp [Except.map, content]
    | ok text => simp [Except.map, content]

theorem readable_iff :
    Readable mail raw ↔ ∃ detail, parseFullMessage mail raw = .ok detail := by
  constructor
  · intro readable
    obtain ⟨header, parsed⟩ := readable.header
    obtain ⟨textBody, text⟩ := body_content_ok_iff.mpr (readable.bodies "plain" (by simp))
    obtain ⟨htmlBody, html⟩ := body_content_ok_iff.mpr (readable.bodies "html" (by simp))
    exact ⟨_, parse_full_ok_iff.mpr ⟨header, textBody, htmlBody, parsed, text, html, rfl⟩⟩
  · rintro ⟨detail, parsed⟩
    obtain ⟨header, textBody, htmlBody, parsed, text, html, _⟩ := parse_full_ok_iff.mp parsed
    refine ⟨⟨header, parsed⟩, ?_⟩
    intro kind mem
    rcases List.mem_pair.mp mem with rfl | rfl
    · exact body_content_ok_iff.mp ⟨textBody, text⟩
    · exact body_content_ok_iff.mp ⟨htmlBody, html⟩

/-- Every attachment is listed and downloadable if and only if the message can be read and
    no part of it, at any depth, is an attached message marked as an attachment. -/
theorem attachments_listed_iff (mail : MessagePackage Msg) (raw : Bytes) :
    (∃ detail, parseFullMessage mail raw = .ok detail ∧
      ListsAttachments mail raw detail.attachments) ↔
      Readable mail raw ∧ ∀ place part, subtree (mail.parseMessage raw) place = some part →
        ¬ HiddenMessage part := by
  constructor
  · rintro ⟨detail, parsed, lists⟩
    refine ⟨readable_iff.mpr ⟨detail, parsed⟩, fun place part found => ?_⟩
    obtain ⟨_, _, _, _, _, _, rfl⟩ := parse_full_ok_iff.mp parsed
    exact lists_visible (List.length_map _) lists found
  · rintro ⟨readable, visible⟩
    obtain ⟨detail, parsed⟩ := readable_iff.mp readable
    refine ⟨detail, parsed, ?_⟩
    obtain ⟨_, _, _, _, _, _, rfl⟩ := parse_full_ok_iff.mp parsed
    exact visible_lists visible

/- A mail that carries another mail as its attachment. -/
def carrierText : String :=
  "Content-Type: multipart/mixed; boundary=b\r\n\r\n--b\r\n" ++
    "Content-Type: message/rfc822\r\nContent-Disposition: attachment\r\n\r\n" ++
    "Subject: inner\r\n\r\nHello\r\n--b--\r\n"

def carrierMail : Bytes := carrierText.toUTF8.toList

def innerMessage : Part :=
  .leaf ⟨none, none, "text/plain", none, some "Hello".toUTF8.toList⟩

def attachedMessage : Part :=
  .node ⟨some "attachment", none, "message/rfc822", none, none⟩ [innerMessage]

def carrier : Part := .node ⟨none, none, "multipart/mixed", none, none⟩ [attachedMessage]

/- What the email package answers for that mail: no header that is asked for, no body. -/
def carrierEmail : MessagePackage Unit where
  toEmailPackage := emptyHeaderEmail
  parseMessage := fun _ => carrier
  getBody := fun _ _ => none
  getContent := fun _ => .ok ""

theorem attached_message_unlisted :
    (∃ detail, parseFullMessage carrierEmail carrierMail = .ok detail ∧ detail.attachments = []) ∧
      ¬ ∃ detail, parseFullMessage carrierEmail carrierMail = .ok detail ∧
        ListsAttachments carrierEmail carrierMail detail.attachments := by
  constructor
  · exact ⟨_, rfl, rfl⟩
  · rintro ⟨detail, parsed, lists⟩
    obtain ⟨_, _, _, _, _, _, rfl⟩ := parse_full_ok_iff.mp parsed
    have hidden : HiddenMessage attachedMessage := ⟨rfl, rfl, by decide⟩
    have found : subtree (carrierEmail.parseMessage carrierMail) [0] = some attachedMessage := rfl
    exact lists_visible (List.length_map attachmentMeta) lists found hidden

end InboxAttachmentListing
