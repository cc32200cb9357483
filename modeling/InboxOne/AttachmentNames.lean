import InboxOne.FetchedBodies
import InboxOne.HttpHeaders
import InboxOne.MessageList

/-!
The Content-Disposition header of a downloaded attachment. The name of the part is put
between quotes as it is, and the response encodes its header values as Latin-1.
-/
namespace InboxAttachmentNames
open FaultyCalls HttpHeaders InboxPython InboxMailbox InboxTables InboxDatabase InboxImapClient
open InboxMessageRoutes InboxMailParts InboxFetchedBodies

structure HttpResponse where
  content : Bytes
  mediaType : Bytes
  contentDisposition : Bytes
  deriving DecidableEq, Repr

/-- `filename or "attachment"`. -/
def nameOf (filename : Option String) : String :=
  if filename.getD "" = "" then "attachment" else filename.getD ""

def dispositionText (filename : Option String) : List Char :=
  "attachment; filename=\"".toList ++ ((nameOf filename).toList ++ ['"'])

def encodeHeader (text : List Char) : Except PyException Bytes :=
  match latin1Encode text with
  | some bytes => .ok bytes
  | none => .error (.valueError "'latin-1' codec can't encode characters")

/-- The response to what was extracted. An ASCII charset that may be appended to the media
    type does not change whether it can be encoded. -/
def attachmentResponse (attachment : Bytes × String × Option String) :
    Except PyException HttpResponse := do
  let contentDisposition ← encodeHeader (dispositionText attachment.2.2)
  let mediaType ← encodeHeader attachment.2.1.toList
  return ⟨attachment.1, mediaType, contentDisposition⟩

/-- `get_attachment` with the response that it returns. -/
def downloadAttachment {Detail Draft : Type}
    (mail : MailFormat Detail (Bytes × String × Option String) Draft) (env : Environment)
    (messageId : Nat) (partIndex : String) : Action HttpResponse := do
  let attachment ← getAttachment mail env messageId partIndex
  lift (attachmentResponse attachment)

/-- Neither a C0 nor a C1 control character, nor DEL. -/
def isVisible (c : Char) : Bool :=
  (32 ≤ c.toNat && c.toNat ≤ 126) || 160 ≤ c.toNat

/-- Some control characters of the name may be missing. -/
def UpToControls (value name : List Char) : Prop :=
  value.Sublist name ∧ value.filter isVisible = name.filter isVisible

/-- Read as a header, the value says attachment, and its one parameter gives the name. -/
def NamesFile (header : Bytes) (name : List Char) : Prop :=
  ∃ kind p value, readDisposition header = some ⟨kind, [p]⟩ ∧
    lowerCase kind = "attachment".toList ∧ fileName p = some value ∧ UpToControls value name

theorem read_kind (tail : List Char) : token ("attachment; filename=\"".toList ++ tail) =
    some ("attachment".toList, "; filename=\"".toList ++ tail) := rfl

theorem read_name (tail : List Char) : parameter ("filename=\"".toList ++ tail) =
    (quoted tail).bind fun found => some (⟨"filename".toList, found.1⟩, found.2) := rfl

theorem read_parameters (fuel : Nat) (tail : List Char) :
    parameters (fuel + 1) ("; filename=\"".toList ++ tail) =
      (parameter ("filename=\"".toList ++ tail)).bind fun first =>
        (parameters fuel first.2).bind fun others => some (first.1 :: others) := rfl

theorem read_disposition (header : Bytes) (tail : List Char)
    (decoded : latin1Decode header = "attachment; filename=\"".toList ++ tail) :
    ∃ fuel, readDisposition header = (quoted tail).bind fun found =>
      (parameters fuel found.2).bind fun others =>
        some ⟨"attachment".toList, ⟨"filename".toList, found.1⟩ :: others⟩ := by
  refine ⟨(" filename=\"".toList ++ tail).length, ?_⟩
  have counted : ("; filename=\"".toList ++ tail).length =
      (" filename=\"".toList ++ tail).length + 1 := rfl
  rw [readDisposition, decoded, read_kind, Option.bind_eq_bind, Option.bind_some]
  simp only [counted, read_parameters, read_name]
  cases quoted tail with
  | none => rfl
  | some found =>
    simp only [Option.bind_some]
    cases parameters (" filename=\"".toList ++ tail).length found.2 with
    | none => rfl
    | some others => rfl

/-- The header has one parameter just when blanks follow the quoted string. -/
theorem one_parameter_iff {header : Bytes} {tail kind : List Char} {p : Parameter}
    (decoded : latin1Decode header = "attachment; filename=\"".toList ++ tail) :
    readDisposition header = some ⟨kind, [p]⟩ ↔ kind = "attachment".toList ∧
      ∃ value rest, quoted tail = some (value, rest) ∧ (∀ c ∈ rest, isBlank c = true) ∧
        p = ⟨"filename".toList, value⟩ := by
  obtain ⟨fuel, read⟩ := read_disposition header tail decoded
  rw [read]
  constructor
  · intro done
    obtain ⟨⟨value, rest⟩, inside, done⟩ := Option.bind_eq_some_iff.mp done
    obtain ⟨others, after, done⟩ := Option.bind_eq_some_iff.mp done
    simp only [Option.some.injEq, Disposition.mk.injEq, List.cons.injEq] at done
    obtain ⟨same, named, last⟩ := done
    rw [last] at after
    exact ⟨same.symm, value, rest, inside, parameters_nil_iff.mp after, named.symm⟩
  · rintro ⟨rfl, value, rest, inside, blank, rfl⟩
    rw [inside, Option.bind_some, parameters_nil_iff.mpr blank]
    rfl

/-- The closing quote of the header is the last character, so the whole name was quoted. -/
theorem quoted_whole {name value rest : List Char}
    (read : quoted (name ++ ['"']) = some (value, rest)) (blank : ∀ c ∈ rest, isBlank c = true) :
    Spells name value := by
  obtain ⟨body, same, spells⟩ := quoted_sound read
  rcases List.eq_nil_or_concat rest with none | ⟨front, last, some⟩
  · rw [none] at same
    rw [List.append_inj_left' same rfl]
    exact spells
  · have shape : name ++ ['"'] = (body ++ '"' :: front) ++ [last] := by
      rw [same, some, List.concat_eq_append]
      simp
    have quote := (List.append_inj' shape rfl).2
    have odd := blank last (some ▸ by simp)
    rw [← (List.cons.inj quote).1] at odd
    contradiction

theorem quoted_text_bounds {c : Char} (text : isQuotedText c = true) :
    c.toNat ≤ 255 := by
  obtain ⟨quotable, _, _⟩ := quoted_text_plain text
  simp only [isQuotable, Bool.or_eq_true, Bool.and_eq_true, beq_iff_eq, decide_eq_true_eq] at quotable
  rcases quotable with (tab | ⟨_, high⟩) | ⟨_, high⟩
  · rw [tab]
    decide
  · omega
  · exact high

/-- Every name that can be encoded: the header gives it back if and only if it has no quote,
    no backslash and no control character but tab. -/
theorem names_file_iff {header : Bytes} {name : List Char}
    (decoded : latin1Decode header = "attachment; filename=\"".toList ++ (name ++ ['"'])) :
    NamesFile header name ↔ ∀ c ∈ name, isQuotedText c = true := by
  constructor
  · rintro ⟨kind, p, value, read, _, given, _, visible⟩
    obtain ⟨_, found, rest, inside, blank, rfl⟩ := (one_parameter_iff decoded).mp read
    have same : found = value := Option.some.inj given
    rw [← same] at visible
    exact (spells_same rfl (quoted_whole inside blank) (congrArg List.length visible)).2
  · intro plain
    have read := (one_parameter_iff decoded).mpr
      ⟨rfl, name, [], quoted_complete plain [], fun _ none => absurd none List.not_mem_nil, rfl⟩
    exact ⟨_, _, name, read, rfl, rfl, List.Sublist.refl _, rfl⟩

theorem encode_header_iff {text : List Char} {bytes : Bytes} :
    encodeHeader text = .ok bytes ↔ latin1Encode text = some bytes := by
  unfold encodeHeader
  cases latin1Encode text with
  | none => simp
  | some found => simp

theorem encodable_iff {text : List Char} :
    (∃ bytes, encodeHeader text = .ok bytes) ↔ ∀ c ∈ text, c.toNat ≤ 255 := by
  simp only [encode_header_iff, latin1_encode_iff]
  exact ⟨fun found => found.choose_spec.1, fun small => ⟨_, small, rfl⟩⟩

theorem bytes_of_check {text : List Char}
    (check : text.all (fun c => decide (c.toNat ≤ 255)) = true) : ∀ c ∈ text, c.toNat ≤ 255 :=
  fun c mem => of_decide_eq_true (List.all_eq_true.mp check c mem)

theorem prefix_bytes : ∀ c ∈ "attachment; filename=\"".toList, c.toNat ≤ 255 :=
  bytes_of_check (by decide)

theorem enclosed_iff {P : Char → Prop} {front name back : List Char} (before : ∀ c ∈ front, P c)
    (after : ∀ c ∈ back, P c) : (∀ c ∈ front ++ (name ++ back), P c) ↔ ∀ c ∈ name, P c := by
  rw [List.forall_mem_append, List.forall_mem_append]
  exact ⟨fun all => all.2.1, fun inside => ⟨before, inside, after⟩⟩

theorem disposition_encodable_iff {filename : Option String} :
    (∀ c ∈ dispositionText filename, c.toNat ≤ 255) ↔
      ∀ c ∈ (nameOf filename).toList, c.toNat ≤ 255 := by
  have last : ∀ c ∈ ['"'], c.toNat ≤ 255 := by
    intro c mem
    rw [List.mem_singleton.mp mem]
    decide
  exact enclosed_iff prefix_bytes last

/-- The fallback name has nothing that needs care. -/
theorem fallback_text : ∀ c ∈ "attachment".toList, isQuotedText c = true :=
  List.all_eq_true.mp (show "attachment".toList.all isQuotedText = true by decide)

theorem name_text_iff {filename : Option String} :
    (∀ c ∈ (nameOf filename).toList, isQuotedText c = true) ↔
      ∀ c ∈ (filename.getD "").toList, isQuotedText c = true := by
  unfold nameOf
  split
  · rename_i empty
    rw [empty]
    exact ⟨fun _ c none => absurd none List.not_mem_nil, fun _ => fallback_text⟩
  · exact Iff.rfl

theorem response_ok_iff {attachment : Bytes × String × Option String} {response : HttpResponse} :
    attachmentResponse attachment = .ok response ↔
      encodeHeader (dispositionText attachment.2.2) = .ok response.contentDisposition ∧
        encodeHeader attachment.2.1.toList = .ok response.mediaType ∧
        response.content = attachment.1 := by
  unfold attachmentResponse
  cases encodeHeader (dispositionText attachment.2.2) with
  | error e => simp [bind, Except.bind]
  | ok disposition =>
    cases encodeHeader attachment.2.1.toList with
    | error e => simp [bind, Except.bind]
    | ok mediaType =>
      obtain ⟨content, media, sent⟩ := response
      simp only [bind, Except.bind, pure, Except.pure, Except.ok.injEq, HttpResponse.mk.injEq]
      constructor
      · rintro ⟨rfl, rfl, rfl⟩
        exact ⟨rfl, rfl, rfl⟩
      · rintro ⟨rfl, rfl, rfl⟩
        exact ⟨rfl, rfl, rfl⟩

/-- The response names the file, if and only if its values can be encoded and the name can
    stand between quotes as it is. -/
theorem response_names_iff {attachment : Bytes × String × Option String} :
    (∃ response, attachmentResponse attachment = .ok response ∧ response.content = attachment.1 ∧
      NamesFile response.contentDisposition (nameOf attachment.2.2).toList) ↔
      (∀ c ∈ attachment.2.1.toList, c.toNat ≤ 255) ∧
        ∀ c ∈ (attachment.2.2.getD "").toList, isQuotedText c = true := by
  rw [← name_text_iff]
  constructor
  · rintro ⟨response, built, _, names⟩
    obtain ⟨disposition, media, _⟩ := response_ok_iff.mp built
    have decoded := latin1_round (encode_header_iff.mp disposition)
    exact ⟨encodable_iff.mp ⟨_, media⟩, (names_file_iff decoded).mp names⟩
  · rintro ⟨media, plain⟩
    have small := disposition_encodable_iff.mpr fun c mem => quoted_text_bounds (plain c mem)
    obtain ⟨header, disposition⟩ := encodable_iff.mpr small
    obtain ⟨mediaType, encoded⟩ := encodable_iff.mpr media
    have decoded := latin1_round (encode_header_iff.mp disposition)
    exact ⟨⟨attachment.1, mediaType, header⟩, response_ok_iff.mpr ⟨disposition, encoded, rfl⟩, rfl,
      (names_file_iff decoded).mpr plain⟩

section Route
variable {Msg Draft : Type} (mail : MessagePackage Msg)
variable (buildReplyMime : Account → Draft → Message → Except PyException (Content × String))
variable (env : Environment)

theorem download_response {Detail : Type} {routes : MailFormat Detail (Bytes × String × Option String) Draft}
    {messageId : Nat} {partIndex : String} {c : Config Request}
    {attachment : Bytes × String × Option String}
    (found : (getAttachment routes env messageId partIndex c).1 = .ok attachment) :
    (downloadAttachment routes env messageId partIndex c).1 = attachmentResponse attachment := by
  unfold downloadAttachment
  show (Program.bind (getAttachment routes env messageId partIndex) _ c).1 = _
  unfold Program.bind
  cases run : getAttachment routes env messageId partIndex c with
  | mk answer after =>
    rw [run] at found
    cases found
    show (lift (attachmentResponse attachment) after).1 = _
    unfold lift
    cases attachmentResponse attachment with
    | ok response => rfl
    | error e => rfl

/-- For every attachment that a run of the route finds: the response can be built and its
    header gives the name back, if and only if the media type is Latin-1 and the name is
    Latin-1 without quotes, backslashes and control characters but tab. -/
theorem attachment_name_sent_iff {messageId : Nat} {partIndex : String} {c : Config Request}
    {payload : Bytes} {contentType : String} {filename : Option String}
    (found : (getAttachment (mailFormat mail buildReplyMime) env messageId partIndex c).1 =
      .ok (payload, contentType, filename)) :
    (∃ response, (downloadAttachment (mailFormat mail buildReplyMime) env messageId partIndex c).1 =
        .ok response ∧ response.content = payload ∧
      NamesFile response.contentDisposition (nameOf filename).toList) ↔
      (∀ c ∈ contentType.toList, c.toNat ≤ 255) ∧
        ∀ c ∈ (filename.getD "").toList, isQuotedText c = true := by
  rw [download_response env found]
  exact response_names_iff

end Route

/- A mail that is nothing but one attached text. -/
def attachedText : Content where
  flags := ∅
  internaldate := none
  size := none
  header := "Content-Disposition: attachment\r\n\r\n".toUTF8.data.toList
  body := "Hi".toUTF8.data.toList

/- What the email package answers for that mail, when the part has this name. -/
def namedEmail (name : String) : MessagePackage Unit where
  toEmailPackage := InboxMailParser.emptyHeaderEmail
  parseMessage := fun _ =>
    .leaf ⟨some "attachment", some name, "text/plain", none, some attachedText.body⟩
  getBody := fun _ _ => none
  getContent := fun _ => .ok ""

def textRow : Message := { InboxMessageList.letter 1 none with subject := none }

def textRequest : Config Request :=
  ⟨begin (InboxMessageList.inboxWith textRow rfl rfl) (oneMailServers attachedText), []⟩

def found (name : String) : Except PyException (Bytes × String × Option String) :=
  (getAttachment (mailFormat (namedEmail name) noReply) quietHost 1 "0" textRequest).1

def downloaded (name : String) : Except PyException HttpResponse :=
  (downloadAttachment (mailFormat (namedEmail name) noReply) quietHost 1 "0" textRequest).1

theorem attachment_name_sent_iff_resume : ∃ response, downloaded "résumé 1.txt" = .ok response ∧
    response.content = attachedText.body ∧
      NamesFile response.contentDisposition "résumé 1.txt".toList := by
  have answer : found "résumé 1.txt" =
      .ok (attachedText.body, "text/plain", some "résumé 1.txt") := rfl
  have law := attachment_name_sent_iff (namedEmail "résumé 1.txt") noReply quietHost answer
  have plain : "résumé 1.txt".toList.all isQuotedText = true := by decide
  exact law.mpr ⟨bytes_of_check (by decide), List.all_eq_true.mp plain⟩

/- A name with quotes is cut off at the first; a name outside Latin-1 fails the request. -/
theorem quoted_and_snowman_names_lost :
    (found "a \"b\".txt" = .ok (attachedText.body, "text/plain", some "a \"b\".txt") ∧
      ¬ ∃ response, downloaded "a \"b\".txt" = .ok response ∧
        NamesFile response.contentDisposition "a \"b\".txt".toList) ∧
    (found "☃.txt" = .ok (attachedText.body, "text/plain", some "☃.txt") ∧
      ∃ e, downloaded "☃.txt" = .error e) := by
  have answer : found "a \"b\".txt" =
      .ok (attachedText.body, "text/plain", some "a \"b\".txt") := rfl
  refine ⟨⟨answer, ?_⟩, rfl, ⟨_, rfl⟩⟩
  rintro ⟨response, built, names⟩
  rw [downloaded, download_response quietHost answer] at built
  have decoded := latin1_round (encode_header_iff.mp (response_ok_iff.mp built).1)
  have plain := (names_file_iff decoded).mp names '"' (by decide)
  contradiction

end InboxAttachmentNames
