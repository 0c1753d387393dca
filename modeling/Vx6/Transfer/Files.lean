import Vx6.Secure.Session
import Vx6.Record.Json
import Vx6.Lib.Run

/-!
# File transfer

`internal/transfer/transfer.go`. The sender names itself, the file and its size; the receiver asks
its policy about that name, compares the size of what it already holds with the size of the file,
and answers with the offset at which the sender goes on.

The offset is right exactly if what is held is a start of the file or longer than it
(`resumed_transfer`), and interrupted transfers of one file leave nothing else (`heldPrefix_runs`). Other
content of the same size or of a smaller one is kept. The policy never sees the identity of the session
(`decision_eq`).

What a remote side sends is decoded by `json.Unmarshal`, which is a parameter: it accepts many texts for
one message. All that is used of it, and only where both sides are this program, is that it reads back
what `json.Marshal` writes (`Parties.ReadBack`).
-/

set_option autoImplicit false

namespace Vx6.Transfer

open Vx6.Go Vx6.Lib Vx6.Record Vx6.Secure

/-! ## Messages -/

/-- `maxHeaderSize`. -/
def maxHeaderSize : Nat := 4 * 1024

/-- `metadata`. -/
structure Metadata where
  nodeName : String := ""
  fileName : String := ""
  fileSize : Int := 0
  deriving DecidableEq

/-- `resumeState`. -/
structure ResumeState where
  offset : Int := 0
  denied : String := ""
  deriving DecidableEq

/-- The errors of both sides. -/
inductive TransferError where
  /-- `node name cannot be empty` -/
  | emptyNodeName
  | identity (e : IdentityError)
  | address (e : RecordError)
  /-- `metadata too large` -/
  | metadataTooLarge
  | frame (e : SessionError)
  | decode
  /-- `metadata missing node_name` -/
  | missingNodeName
  /-- `metadata missing file_name` -/
  | missingFileName
  /-- `metadata contains invalid file_size` -/
  | invalidFileSize
  /-- `transfer rejected: %s` -/
  | rejected (reason : String)
  /-- `resume state contains invalid offset` -/
  | negativeOffset
  /-- `receiver requested invalid resume offset %d` -/
  | invalidOffset (offset : Int)
  /-- `file transfer from %q is not allowed` -/
  | notAllowed (sender : String)
  /-- `file receiving is disabled` -/
  | disabled
  | createDirectory
  | writeAnswer
  | createFile
  | receiveStream
  deriving DecidableEq

/-- The members of a `metadata`. -/
def metadataMembers (m : Metadata) : List (String × String) :=
  [("node_name", jsonString m.nodeName), ("file_name", jsonString m.fileName),
    ("file_size", formatInt m.fileSize)]

/-- `json.Marshal` of a `metadata`. -/
def marshalMetadata (m : Metadata) : String := jsonObject (metadataMembers m)

/-- A decoder of the texts that `marshalMetadata` writes, and of no others. -/
def compactMetadata (payload : Bytes) : Option Metadata := do
  let members ← (textOf payload).bind readObject
  return {
    nodeName := ← stringField members "node_name"
    fileName := ← stringField members "file_name"
    fileSize := ← readField readInt 0 members "file_size" }

/-- The members of a `resumeState`. -/
def resumeMembers (state : ResumeState) : List (String × String) :=
  ("offset", formatInt state.offset) :: omitEmpty (state.denied = "") ("denied", jsonString state.denied)

/-- `json.Marshal` of a `resumeState`. -/
def marshalResumeState (state : ResumeState) : String := jsonObject (resumeMembers state)

/-- A decoder of the texts that `marshalResumeState` writes, and of no others. -/
def compactResumeState (payload : Bytes) : Option ResumeState := do
  let members ← (textOf payload).bind readObject
  return {
    offset := ← readField readInt 0 members "offset"
    denied := ← stringField members "denied" }

/-- `writeMetadata`. -/
def writeMetadata (m : Metadata) : Except TransferError Bytes := do
  let payload := bytes (marshalMetadata m)
  rejectIf (maxHeaderSize < payload.length) .metadataTooLarge
  return writeLengthPrefixed payload

/-- `readMetadata`, with what is left to read; `decode` is `json.Unmarshal` into a `metadata`. -/
def readMetadata (decode : Bytes → Option Metadata) (stream : Bytes) :
    Except TransferError (Metadata × Bytes) := do
  let (payload, rest) ← (readLengthPrefixed stream maxHeaderSize).mapError .frame
  let m ← orReject (decode payload) .decode
  rejectIf (m.nodeName = "") .missingNodeName
  rejectIf (m.fileName = "") .missingFileName
  rejectIf (m.fileSize < 0) .invalidFileSize
  return (m, rest)

/-- `writeResumeState`. -/
def writeResumeState (state : ResumeState) :
    Bytes := writeLengthPrefixed (bytes (marshalResumeState state))

/-- `readResumeState`; `decode` is `json.Unmarshal` into a `resumeState`. -/
def readResumeState (decode : Bytes → Option ResumeState) (stream : Bytes) :
    Except TransferError ResumeState := do
  let (payload, _) ← (readLengthPrefixed stream maxHeaderSize).mapError .frame
  let state ← orReject (decode payload) .decode
  rejectIf (state.denied ≠ "") (.rejected state.denied)
  rejectIf (state.offset < 0) .negativeOffset
  return state

/-! ## The sender -/

/-- `filepath.Base`. -/
def base (path : String) : String :=
  if path = "" then "."
  else
    let kept := path.toList.reverse.dropWhile (· = '/')
    let name := (kept.takeWhile (· ≠ '/')).reverse
    if name = [] then "/" else String.ofList name

/-- `SendRequest`. -/
structure SendRequest where
  nodeName : String
  filePath : String
  address : String := ""
  identity : Identity

/-- A regular file. Its size is an `int64`. -/
structure SourceFile where
  content : Bytes
  size_lt : content.length < 2 ^ 63

/-- The metadata of a request. -/
def metadataOf (req : SendRequest) (file : SourceFile) : Metadata where
  nodeName := req.nodeName
  fileName := base req.filePath
  fileSize := file.content.length

/-- The address of a request is checked if it has one. -/
def checkAddress (address : String) : Except TransferError Unit :=
  if address ≠ "" then (validateIPv6Address address).mapError .address else .ok ()

/-- `SendFileWithConn` up to the metadata. The file is open and the session is established. -/
def sendMetadata (cr : Crypto) (req : SendRequest) (file : SourceFile) : Except TransferError Bytes := do
  rejectIf (req.nodeName = "") .emptyNodeName
  (req.identity.validate cr).mapError .identity
  checkAddress req.address
  writeMetadata (metadataOf req file)

/-- `SendFileWithConn` from the answer on: the bytes that `io.Copy` sends. -/
def sendContent (decode : Bytes → Option ResumeState) (file : SourceFile) (answer : Bytes) :
    Except TransferError Bytes := do
  let state ← readResumeState decode answer
  rejectIf (state.offset < 0 || (file.content.length : Int) < state.offset) (.invalidOffset state.offset)
  return file.content.drop state.offset.toNat

/-! ## The receiver -/

/-- The modes of a policy. -/
def receiveModeTrusted : String := "trusted"

@[inherit_doc receiveModeTrusted]
def receiveModeOpen : String := "open"

/-- `ReceivePolicy`. -/
structure ReceivePolicy where
  mode : String
  allowedSenders : List String := []

/-- `authorize`. -/
def ReceivePolicy.authorize (p : ReceivePolicy) (sender : String) : Except TransferError Unit :=
  if p.mode = receiveModeOpen then .ok ()
  else if p.mode = receiveModeTrusted then rejectIf (sender ∉ p.allowedSenders) (.notAllowed sender)
  else .error .disabled

/-- The text of a refusal; `quote` is the verb `%q`. -/
def refusal (quote : String → String) : TransferError → String
  | .notAllowed sender => "file transfer from " ++ quote sender ++ " is not allowed"
  | _ => "file receiving is disabled"

/-- The characters that a directory name does not keep. -/
def cleanDirChar (c : Char) : Char :=
  if c ∈ ['/', '\\', ':', '*', '?', '"', '<', '>', '|', ' ', '\t', '\n', '\r'] then '_' else c

/-- `sanitizeReceiverDirName`. -/
def sanitizeReceiverDirName (nodeName nodeID : String) : String :=
  let nodeName := if nodeName = "" then "unknown" else nodeName
  let nodeID := if nodeID = "" then "unknownid" else nodeID
  String.ofList (nodeName.toList.map cleanDirChar) ++ "_" ++
    String.ofList (nodeID.toList.map cleanDirChar) ++ "_vx6"

/-- A path below the data directory. -/
structure Place where
  receiverDir : String
  name : String
  deriving DecidableEq

/-- The files below the data directory. -/
abbrev Disk := Place → Option Bytes

/-- The offset from the size of what is held. -/
def resumeOffset (held : Option Bytes) (fileSize : Int) : Int :=
  let offset : Int := match held with
    | none => 0
    | some content =>
      if content.length = fileSize then content.length
      else if 0 < content.length ∧ content.length < fileSize then content.length
      else 0
  if fileSize < offset then 0 else offset

/-- A transfer whose answer was sent, with the bytes that came along with the metadata. -/
structure Accepted where
  metadata : Metadata
  place : Place
  offset : Int
  rest : Bytes

/-- `ReceiveFileWithPolicy` up to the answer: the outcome and the bytes of the answer. `mkdirs` and
`answers` tell whether the directory can be made and the answer be written. -/
def receiveMetadata (decode : Bytes → Option Metadata) (quote : String → String) (policy : ReceivePolicy)
    (peerNodeID : String) (disk : Disk) (mkdirs answers : Bool) (stream : Bytes) :
    Except TransferError Accepted × Bytes :=
  match readMetadata decode stream with
  | .error e => (.error e, [])
  | .ok (m, rest) =>
    match policy.authorize m.nodeName with
    | .error e => (.error e, writeResumeState { denied := refusal quote e })
    | .ok () =>
      let place := ⟨sanitizeReceiverDirName m.nodeName peerNodeID, base m.fileName⟩
      let offset := resumeOffset (disk place) m.fileSize
      if !mkdirs then (.error .createDirectory, [])
      else if !answers then (.error .writeAnswer, [])
      else (.ok ⟨m, place, offset, rest⟩, writeResumeState { offset := offset })

/-- Writing at an offset. -/
def writeAt (content : Bytes) (offset : Nat) (data : Bytes) : Bytes :=
  content.take offset ++ List.replicate (offset - content.length) 0 ++ data ++
    content.drop (offset + data.length)

/-- `ReceiveResult`. -/
structure ReceiveResult where
  senderNode : String
  fileName : String
  bytesReceived : Int
  storedPath : Place
  deriving DecidableEq

/-- `ReceiveFileWithPolicy` from the answer on, with the bytes that arrive until the connection
ends. `opens` tells whether the file can be opened for writing. -/
def receiveContent (t : Accepted) (disk : Disk) (opens : Bool) (stream : Bytes) :
    Except TransferError ReceiveResult × Disk :=
  if !opens then (.error .createFile, disk)
  else
    -- the file is truncated only if the transfer starts from its beginning
    let content := if t.offset = 0 then [] else (disk t.place).getD []
    let wanted := (t.metadata.fileSize - t.offset).toNat
    let data := (t.rest ++ stream).take wanted
    let disk := Function.update disk t.place (some (writeAt content t.offset.toNat data))
    if data.length < wanted then (.error .receiveStream, disk)
    else (.ok ⟨t.metadata.nodeName, t.metadata.fileName, t.offset + data.length, t.place⟩, disk)

/-! ## A transfer -/

/-- How a transfer may fail from outside: how many bytes of each message arrive before the
connection ends, and whether the receiver can make the directory, write its answer and open the
file. -/
structure Link where
  metadataBytes : Nat
  answerBytes : Nat
  contentBytes : Nat
  mkdirs : Bool := true
  answers : Bool := true
  opens : Bool := true

/-- What both sides report, and the files of the receiver. -/
structure Outcome where
  sent : Except TransferError Nat
  received : Except TransferError ReceiveResult
  disk : Disk

/-- The two sides of a session, with the decoders of the messages they send to each other. -/
structure Parties where
  cr : Crypto
  decodeMetadata : Bytes → Option Metadata
  decodeResumeState : Bytes → Option ResumeState
  quote : String → String
  policy : ReceivePolicy
  /-- The identity that the session authenticated. -/
  peerNodeID : String
  req : SendRequest
  file : SourceFile

/-- Where the file is stored. -/
def Parties.place (p : Parties) : Place :=
  ⟨sanitizeReceiverDirName p.req.nodeName p.peerNodeID, base (base p.req.filePath)⟩

/-- The decoders read back what was encoded. -/
structure Parties.ReadBack (p : Parties) : Prop where
  metadata : ∀ m : Metadata, 0 ≤ m.fileSize → m.fileSize < 2 ^ 63 →
    p.decodeMetadata (bytes (marshalMetadata m)) = some m
  resumeState : ∀ offset : Int, 0 ≤ offset → offset < 2 ^ 63 →
    p.decodeResumeState (bytes (marshalResumeState { offset := offset })) = some { offset := offset }

/-- `SendFileWithConn` against `ReceiveFileWithPolicy`. -/
def transfer (p : Parties) (disk : Disk) (link : Link) : Outcome :=
  match sendMetadata p.cr p.req p.file with
  | .error e => ⟨.error e, .error (.frame .readSize), disk⟩
  | .ok header =>
    match receiveMetadata p.decodeMetadata p.quote p.policy p.peerNodeID disk link.mkdirs link.answers
        (header.take link.metadataBytes) with
    | (.error e, answer) =>
      ⟨(sendContent p.decodeResumeState p.file (answer.take link.answerBytes)).map List.length,
        .error e, disk⟩
    | (.ok accepted, answer) =>
      match sendContent p.decodeResumeState p.file (answer.take link.answerBytes) with
      | .error e =>
        let (received, disk) := receiveContent accepted disk link.opens []
        ⟨.error e, received, disk⟩
      | .ok content =>
        let (received, disk) := receiveContent accepted disk link.opens (content.take link.contentBytes)
        ⟨.ok content.length, received, disk⟩

/-! ## Messages that arrive in part -/

theorem readLengthPrefixed_append {stream payload rest : Bytes} {maxSize : Nat}
    (h : readLengthPrefixed stream maxSize = .ok (payload, rest)) (more : Bytes) :
    readLengthPrefixed (stream ++ more) maxSize = .ok (payload, rest ++ more) := by
  simp only [readLengthPrefixed, bind_eq_ok, rejectIf_eq_ok, pure_eq_ok,
    decide_eq_false_iff_not, Nat.not_lt,
    Bool.or_eq_false_iff, exists_const, Prod.mk.injEq] at h ⊢
  obtain ⟨hfour, hlength, hrest, rfl, rfl⟩ := h
  have htake : (stream ++ more).take 4 = stream.take 4 := List.take_append_of_le_length hfour
  have hdrop : (stream ++ more).drop 4 = stream.drop 4 ++ more := List.drop_append_of_le_length hfour
  rw [htake, hdrop, List.length_append, List.length_append]
  exact ⟨by omega, hlength, by omega, List.take_append_of_le_length hrest,
    List.drop_append_of_le_length hrest⟩

/-- Of a message that arrives in part, only the whole payload is ever read. -/
theorem payload_of_read_take {payload found rest : Bytes} {maxSize n : Nat}
    (hsize : payload.length < 2 ^ 32)
    (h : readLengthPrefixed ((writeLengthPrefixed payload).take n) maxSize = .ok (found, rest)) :
    found = payload ∧ rest = [] := by
  have hwhole := readLengthPrefixed_append h ((writeLengthPrefixed payload).drop n)
  rw [List.take_append_drop] at hwhole
  have hlen : (putUint32 payload.length).length = 4 := rfl
  have htake : (writeLengthPrefixed payload).take 4 = putUint32 payload.length := by
    rw [writeLengthPrefixed, ← hlen, List.take_left]
  have hdrop : (writeLengthPrefixed payload).drop 4 = payload := by
    rw [writeLengthPrefixed, ← hlen, List.drop_left]
  simp only [readLengthPrefixed, bind_eq_ok, rejectIf_eq_ok, pure_eq_ok, exists_const, htake, hdrop,
    bigEndian_putUint32 hsize, List.take_length, List.drop_length, Prod.mk.injEq] at hwhole
  obtain ⟨-, -, -, hfound, hrest⟩ := hwhole
  exact ⟨hfound.symm, (List.append_eq_nil_iff.1 hrest.symm).1⟩

theorem compactMetadata_marshal (m : Metadata) (h0 : 0 ≤ m.fileSize) (h1 : m.fileSize < 2 ^ 63) :
    compactMetadata (bytes (marshalMetadata m)) = some m := by
  have hclosed : ∀ x ∈ metadataMembers m, Closed x.2.toList := by
    simp only [metadataMembers, List.forall_mem_cons, closed_jsonString, closed_formatInt, true_and]
    exact fun x hx => absurd hx List.not_mem_nil
  have hread : (textOf (bytes (marshalMetadata m))).bind readObject = some (metadataMembers m) := by
    rw [textOf_bytes, Option.bind_some]
    exact readObject_jsonObject hclosed
  refine bind_of_some hread (bind_of_some (stringField_of_some rfl) ?_)
  exact bind_of_some (stringField_of_some rfl)
    (bind_of_some (readField_of_some rfl (readInt_formatInt (by omega) h1)) rfl)

/-- The answer that accepts a transfer. -/
theorem compactResumeState_offset (offset : Int) (h0 : 0 ≤ offset) (h1 : offset < 2 ^ 63) :
    compactResumeState (bytes (marshalResumeState { offset := offset })) = some { offset := offset } := by
  have hclosed : ∀ x ∈ resumeMembers { offset := offset }, Closed x.2.toList := by
    simp only [resumeMembers, omitEmpty, decide_true, if_true, List.forall_mem_cons,
      closed_formatInt, true_and]
    exact fun x hx => absurd hx List.not_mem_nil
  have hread : (textOf (bytes (marshalResumeState { offset := offset }))).bind readObject =
      some (resumeMembers { offset := offset }) := by
    rw [textOf_bytes, Option.bind_some]
    exact readObject_jsonObject hclosed
  have hint : readInt (formatInt offset) = some offset := readInt_formatInt (by omega) h1
  exact bind_of_some hread (bind_of_some (readField_of_some rfl hint) rfl)

/-- The text of an accepting answer is short. -/
theorem length_answer_lt {offset : Int} (h0 : 0 ≤ offset) (h1 : offset < 2 ^ 63) :
    (bytes (marshalResumeState { offset := offset })).length < 2 ^ 32 := by
  obtain ⟨m, rfl⟩ := Int.eq_ofNat_of_zero_le h0
  have hnum := len_jsonNat_le (UInt64.ofNat m)
  rw [UInt64.toNat_ofNat_of_lt' (Nat.lt_trans (by omega : m < 2 ^ 63) (by decide))] at hnum
  have hlen : len (jsonObject [("offset", jsonNat m)]) = len (jsonString "offset") +
      len (jsonNat m) + 3 := by
    rw [len_jsonObject (List.cons_ne_nil _ _), List.map_singleton, List.sum_singleton, memberLen]
  rw [show len (jsonString "offset") = 8 by decide] at hlen
  show len (jsonObject [("offset", jsonNat m)]) < 2 ^ 32
  omega

section Reading

variable {p : Parties} {header answer content : Bytes}

/-- If the receiver reads metadata, they are those of the request. -/
theorem metadata_of_read (hback : p.ReadBack) {n : Nat} {m : Metadata} {rest : Bytes}
    (hheader : sendMetadata p.cr p.req p.file = .ok header)
    (h : readMetadata p.decodeMetadata (header.take n) = .ok (m, rest)) :
    m = metadataOf p.req p.file ∧ rest = [] := by
  simp only [sendMetadata, writeMetadata, bind_eq_ok, pure_eq_ok, rejectIf_eq_ok, decide_eq_false_iff_not,
    Nat.not_lt] at hheader
  obtain ⟨_, -, _, -, _, -, _, hlen, rfl⟩ := hheader
  simp only [readMetadata, bind_eq_ok, mapError_eq_ok, orReject_eq_ok, pure_eq_ok] at h
  obtain ⟨⟨payload, after⟩, hread, m', hm, _, -, _, -, _, -, heq⟩ := h
  obtain ⟨rfl, rfl⟩ := payload_of_read_take (Nat.lt_of_le_of_lt hlen (by decide)) hread
  cases heq
  have hsize : (metadataOf p.req p.file).fileSize < 2 ^ 63 := Int.ofNat_lt.2 p.file.size_lt
  rw [hback.metadata _ (Int.natCast_nonneg _) hsize] at hm
  exact ⟨(Option.some.inj hm).symm, rfl⟩

/-- If the sender takes an answer, it goes on at the offset. -/
theorem content_of_answer (hback : p.ReadBack) {n : Nat} {offset : Int} (h0 : 0 ≤ offset)
    (h1 : offset < 2 ^ 63)
    (h : sendContent p.decodeResumeState p.file ((writeResumeState { offset := offset }).take n) =
      .ok content) : content = p.file.content.drop offset.toNat := by
  simp only [sendContent, readResumeState, bind_eq_ok, mapError_eq_ok, orReject_eq_ok, pure_eq_ok,
    writeResumeState] at h
  obtain ⟨state, ⟨⟨payload, after⟩, hread, state', hstate, _, -, _, -, rfl⟩, _, -, rfl⟩ := h
  obtain ⟨rfl, -⟩ := payload_of_read_take (length_answer_lt h0 h1) hread
  rw [hback.resumeState offset h0 h1] at hstate
  cases hstate
  rfl

end Reading

/-! ## Offsets -/

/-- The offset is zero, or the size of what is held, which is then not larger than the file. -/
theorem resumeOffset_cases (held : Option Bytes) (size : Nat) :
    resumeOffset held size = 0 ∨
      ∃ content, held = some content ∧ content.length ≤ size ∧ resumeOffset held size =
        content.length := by
  cases held with
  | none =>
    left
    simp [resumeOffset]
  | some content =>
    by_cases hle : content.length ≤ size
    · rcases Nat.eq_zero_or_pos content.length with hzero | hpos
      · left
        simp [resumeOffset, hzero]
      · right
        refine ⟨content, rfl, hle, ?_⟩
        simp only [resumeOffset]
        split_ifs <;> omega
    · left
      simp only [resumeOffset]
      split_ifs <;> omega

theorem writeAt_end (content data : Bytes) : writeAt content content.length data = content ++ data := by
  simp [writeAt]

theorem resumeOffset_bounds (held : Option Bytes) (size : Nat) :
    0 ≤ resumeOffset held size ∧ resumeOffset held size ≤ size := by
  rcases resumeOffset_cases held size with hzero | ⟨content, -, hle, hoffset⟩
  · omega
  · omega

/-! ## What a transfer does -/

/-- The file of the receiver after it wrote the given data. -/
def storedContent (held : Option Bytes) (size : Nat) (data : Bytes) : Bytes :=
  let offset := resumeOffset held size
  writeAt (if offset = 0 then [] else held.getD []) offset.toNat data

/-- A transfer that changed a file of the receiver: it wrote a start of what is missing behind the
offset. The receiver succeeds only with all of it. -/
structure Wrote (p : Parties) (disk : Disk) (o : Outcome) (data : Bytes) : Prop where
  start : data <+: p.file.content.drop (resumeOffset (disk p.place) p.file.content.length).toNat
  disk_eq : o.disk = Function.update disk p.place
    (some (storedContent (disk p.place) p.file.content.length data))
  whole : ∀ r, o.received = .ok r →
    data = p.file.content.drop (resumeOffset (disk p.place) p.file.content.length).toNat ∧
      r.bytesReceived = p.file.content.length ∧ r.storedPath = p.place

section Transfers

variable {p : Parties} {disk : Disk} {link : Link}

/-- What the receiver accepts. -/
theorem accepted_of_receiveMetadata (hback : p.ReadBack) {header answer : Bytes} {t : Accepted} {n : Nat}
    (hheader : sendMetadata p.cr p.req p.file = .ok header)
    (h : receiveMetadata p.decodeMetadata p.quote p.policy p.peerNodeID disk link.mkdirs link.answers
      (header.take n) = (.ok t, answer)) :
    t = ⟨metadataOf p.req p.file, p.place, resumeOffset (disk p.place) p.file.content.length, []⟩ ∧
      answer = writeResumeState { offset := resumeOffset (disk p.place) p.file.content.length } := by
  unfold receiveMetadata at h
  split at h
  · cases h
  · rename_i m rest hread
    obtain ⟨rfl, rfl⟩ := metadata_of_read hback hheader hread
    split at h
    · cases h
    · split_ifs at h
      · cases h
      · cases h
      · cases h
        exact ⟨rfl, rfl⟩

/-- The receiver reads a start of what is missing. -/
theorem wrote_of_receiveContent {o : Outcome} {data : Bytes}
    (hdata : data <+: p.file.content.drop (resumeOffset (disk p.place) p.file.content.length).toNat)
    (h : (o.received, o.disk) = receiveContent ⟨metadataOf p.req p.file, p.place,
      resumeOffset (disk p.place) p.file.content.length, []⟩ disk true data) : Wrote p disk o data := by
  obtain ⟨h0, hle⟩ := resumeOffset_bounds (disk p.place) p.file.content.length
  set offset := resumeOffset (disk p.place) p.file.content.length with hoffset
  have hwanted : ((metadataOf p.req p.file).fileSize - offset).toNat =
      (p.file.content.drop offset.toNat).length := by
    rw [List.length_drop]
    show ((p.file.content.length : Int) - offset).toNat = _
    omega
  have htake : data.take (p.file.content.drop offset.toNat).length = data :=
    List.take_of_length_le hdata.length_le
  simp only [receiveContent, Bool.not_true, Bool.false_eq_true, if_false, List.nil_append,
    hwanted, htake] at h
  by_cases hshort : data.length < (p.file.content.drop offset.toNat).length
  · rw [if_pos hshort] at h
    obtain ⟨hreceived, hdisk⟩ := Prod.mk.inj h
    refine ⟨hdata, hdisk, fun r hr => ?_⟩
    rw [hreceived] at hr
    cases hr
  · rw [if_neg hshort] at h
    obtain ⟨hreceived, hdisk⟩ := Prod.mk.inj h
    have hwhole := hdata.eq_of_length_le (Nat.not_lt.1 hshort)
    refine ⟨hdata, hdisk, fun r hr => ?_⟩
    rw [hreceived] at hr
    cases hr
    refine ⟨hwhole, ?_, rfl⟩
    show offset + (data.length : Int) = p.file.content.length
    rw [hwhole, List.length_drop]
    omega

/-- A transfer leaves the files as they are, or it wrote a start of what is missing. -/
theorem transfer_cases (hback : p.ReadBack) (disk : Disk) (link : Link) :
    ((transfer p disk link).disk = disk ∧ ∀ r, (transfer p disk link).received ≠ .ok r) ∨
      ∃ data, Wrote p disk (transfer p disk link) data := by
  unfold transfer
  cases hheader : sendMetadata p.cr p.req p.file with
  | error e => exact .inl ⟨rfl, nofun⟩
  | ok header =>
    dsimp only
    rcases haccept : receiveMetadata p.decodeMetadata p.quote p.policy p.peerNodeID disk link.mkdirs
      link.answers (header.take link.metadataBytes) with ⟨e | t, answer⟩
    · exact .inl ⟨rfl, nofun⟩
    obtain ⟨rfl, rfl⟩ := accepted_of_receiveMetadata hback hheader haccept
    cases hopens : link.opens with
    | false =>
      left
      dsimp only
      split
      · exact ⟨rfl, nofun⟩
      · exact ⟨rfl, nofun⟩
    | true =>
      right
      obtain ⟨h0, hle⟩ := resumeOffset_bounds (disk p.place) p.file.content.length
      dsimp only
      split
      · exact ⟨[], wrote_of_receiveContent (List.nil_prefix) rfl⟩
      · rename_i content hcontent
        have hlt : resumeOffset (disk p.place) p.file.content.length < 2 ^ 63 := by
          have := p.file.size_lt
          omega
        rw [content_of_answer hback h0 hlt hcontent]
        exact ⟨_, wrote_of_receiveContent (List.take_prefix _ _) rfl⟩

/-- What the sender reports. -/
theorem sent_of_transfer (hback : p.ReadBack) {n : Nat} {r : ReceiveResult} (hsent : (transfer p disk link).sent = .ok n)
    (hreceived : (transfer p disk link).received = .ok r) :
    (n : Int) = p.file.content.length - resumeOffset (disk p.place) p.file.content.length := by
  unfold transfer at hsent hreceived
  cases hheader : sendMetadata p.cr p.req p.file with
  | error e =>
    rw [hheader] at hsent
    cases hsent
  | ok header =>
    rw [hheader] at hsent hreceived
    dsimp only at hsent hreceived
    rcases haccept : receiveMetadata p.decodeMetadata p.quote p.policy p.peerNodeID disk link.mkdirs
      link.answers (header.take link.metadataBytes) with ⟨e | t, answer⟩
    · rw [haccept] at hreceived
      cases hreceived
    rw [haccept] at hsent
    obtain ⟨rfl, rfl⟩ := accepted_of_receiveMetadata hback hheader haccept
    obtain ⟨h0, hle⟩ := resumeOffset_bounds (disk p.place) p.file.content.length
    have hlt : resumeOffset (disk p.place) p.file.content.length < 2 ^ 63 := by
      have := p.file.size_lt
      omega
    dsimp only at hsent
    split at hsent
    · cases hsent
    · rename_i content hcontent
      cases hsent
      rw [content_of_answer hback h0 hlt hcontent, List.length_drop]
      omega

end Transfers

/-! ## Resumed transfers -/

/-- What is held is a start of the file, or longer than it. -/
def Resumable (file : Bytes) : Option Bytes → Prop
  | none => True
  | some content => content <+: file ∨ file.length < content.length

/-- What is held is a start of the file. -/
def HeldPrefix (file : Bytes) (held : Option Bytes) : Prop := ∀ content ∈ held, content <+: file

theorem HeldPrefix.resumable {file : Bytes} {held : Option Bytes} (h : HeldPrefix file held) :
    Resumable file held := by
  cases held with
  | none => trivial
  | some content => exact .inl (h content rfl)

section Resumed

variable {file : Bytes} {held : Option Bytes} {data : Bytes}

/-- The receiver keeps a start of the file only, unless the transfer begins anew. -/
theorem storedContent_cases (h : Resumable file held) (data : Bytes) :
    (resumeOffset held file.length = 0 ∧ storedContent held file.length data = data) ∨
      ∃ content, content <+: file ∧ resumeOffset held file.length = content.length ∧
        storedContent held file.length data = content ++ data := by
  rcases resumeOffset_cases held file.length with hzero | ⟨content, rfl, hle, hoffset⟩
  · left
    refine ⟨hzero, ?_⟩
    rw [storedContent, hzero]
    exact writeAt_end [] data
  · right
    have hstart : content <+: file := by
      rcases h with hinitial | hlonger
      · exact hinitial
      · omega
    refine ⟨content, hstart, hoffset, ?_⟩
    rw [storedContent, hoffset]
    split_ifs with hempty
    · have hnil : content = [] := List.eq_nil_of_length_eq_zero (by omega)
      rw [hnil]
      exact writeAt_end [] data
    · exact writeAt_end content data

/-- A start of what is missing completes to a start of the file. -/
theorem storedContent_prefix (h : Resumable file held)
    (hdata : data <+: file.drop (resumeOffset held file.length).toNat) :
    storedContent held file.length data <+: file := by
  rcases storedContent_cases h data with ⟨hzero, hstored⟩ | ⟨content, ⟨rest, rfl⟩, hoffset, hstored⟩
  · rw [hzero] at hdata
    rwa [hstored]
  · rw [hoffset, Int.toNat_natCast, List.drop_left] at hdata
    rw [hstored]
    exact (List.prefix_append_right_inj content).2 hdata

/-- All of what is missing completes the file, and nothing else: other content that is kept stays in
front of it. -/
theorem storedContent_whole_iff :
    storedContent held file.length (file.drop (resumeOffset held file.length).toNat) = file ↔
      Resumable file held := by
  constructor
  · intro hwhole
    rcases held with _ | content
    · trivial
    · by_cases hle : content.length ≤ file.length
      · left
        rcases resumeOffset_cases (some content) file.length with hzero | ⟨_, hsome, -, hoffset⟩
        · -- only empty content is not longer than the file and not kept
          have hnil : content = [] := by
            refine List.eq_nil_of_length_eq_zero ?_
            simp only [resumeOffset] at hzero
            split_ifs at hzero <;> omega
          rw [hnil]
          exact List.nil_prefix
        · cases hsome
          rw [storedContent, hoffset, Int.toNat_natCast] at hwhole
          split_ifs at hwhole with hempty
          · rw [List.eq_nil_of_length_eq_zero (Int.natCast_eq_zero.1 hempty)]
            exact List.nil_prefix
          · rw [Option.getD_some, writeAt_end] at hwhole
            exact ⟨_, hwhole⟩
      · exact .inr (Nat.not_le.1 hle)
  · intro h
    rcases storedContent_cases h (file.drop (resumeOffset held file.length).toNat) with
      ⟨hzero, hstored⟩ | ⟨content, ⟨rest, rfl⟩, hoffset, hstored⟩
    · rw [hstored, hzero]
      rfl
    · rw [hstored, hoffset, Int.toNat_natCast, List.drop_left]

end Resumed

section Runs

variable {p : Parties} {disk : Disk}

/-- A transfer of the file, however it ends, leaves a start of the file. -/
theorem HeldPrefix.transfer (hback : p.ReadBack) (h : HeldPrefix p.file.content (disk p.place))
    (link : Link) :
    HeldPrefix p.file.content ((Transfer.transfer p disk link).disk p.place) := by
  rcases transfer_cases hback disk link with ⟨hdisk, -⟩ | ⟨data, hwrote⟩
  · rwa [hdisk]
  · rw [hwrote.disk_eq, Function.update_self]
    rintro content ⟨⟩
    exact storedContent_prefix h.resumable hwrote.start

/-- The files of the receiver after some transfers of the file. -/
def transfers (p : Parties) (disk : Disk) (links : List Link) : Disk :=
  links.foldl (fun disk link => (transfer p disk link).disk) disk

/-- Any number of transfers of the file, however each of them ends, leave a start of the file. -/
theorem heldPrefix_runs (hback : p.ReadBack) (h : HeldPrefix p.file.content (disk p.place))
    (links : List Link) :
    HeldPrefix p.file.content (transfers p disk links p.place) := by
  induction links generalizing disk with
  | nil => exact h
  | cons link rest ih => exact ih (HeldPrefix.transfer hback h link)

end Runs

/-- A transfer that succeeds on both sides stores the file exactly if what the receiver held is a start of
the file or longer than it. The receiver reports the size of the file, the sender what it had to send,
and no other file of the receiver changes. Any number of earlier transfers of the file to an empty place
leave a start of it. -/
theorem resumed_transfer {p : Parties} (hback : p.ReadBack) {disk : Disk} {link : Link} {n : Nat}
    {r : ReceiveResult} (hsent : (transfer p disk link).sent = .ok n)
    (hreceived : (transfer p disk link).received = .ok r) :
    ((transfer p disk link).disk p.place = some p.file.content ↔
        Resumable p.file.content (disk p.place)) ∧
      r.bytesReceived = p.file.content.length ∧ r.storedPath = p.place ∧
      (n : Int) = p.file.content.length - resumeOffset (disk p.place) p.file.content.length ∧
      (∀ place ≠ p.place, (transfer p disk link).disk place = disk place) ∧
      ∀ empty links, empty p.place = none →
        Resumable p.file.content (transfers p empty links p.place) := by
  rcases transfer_cases hback disk link with ⟨-, hfailed⟩ | ⟨data, hwrote⟩
  · exact absurd hreceived (hfailed r)
  · obtain ⟨rfl, hcount, hplace⟩ := hwrote.whole r hreceived
    refine ⟨?_, hcount, hplace, sent_of_transfer hback hsent hreceived, fun place hne => ?_,
      fun empty links hempty => (heldPrefix_runs hback ?_ links).resumable⟩
    · rw [hwrote.disk_eq, Function.update_self, Option.some.injEq]
      exact storedContent_whole_iff
    · rw [hwrote.disk_eq, Function.update_of_ne hne]
    · rw [hempty]
      exact nofun

/-- Primitives under which the identity of the samples is valid. -/
def sampleCrypto : Crypto where
  sha256 _ := Vector.replicate 32 0
  ed25519Verify _ _ _ := true

/-- The node `alpha` sends two bytes. -/
def twoBytes : Parties where
  cr := sampleCrypto
  decodeMetadata := compactMetadata
  decodeResumeState := compactResumeState
  quote s := s
  policy := ⟨receiveModeOpen, []⟩
  peerNodeID := "vx6_00"
  req := {
    nodeName := "alpha"
    filePath := "/tmp/notes.txt"
    identity := {
      nodeID := nodeIDFromPublicKey sampleCrypto (List.replicate 32 1)
      publicKey := List.replicate 32 1
      privateKey := List.replicate 64 1 } }
  file := ⟨[1, 2], by decide⟩

theorem twoBytes_readBack : twoBytes.ReadBack := ⟨compactMetadata_marshal, compactResumeState_offset⟩

/-- The receiver holds some content under the path of the file. -/
def holding (content : Bytes) : Disk := Function.update (fun _ => none) twoBytes.place (some content)

/-- A link over which everything arrives. -/
def wholeLink : Link := ⟨4096, 4096, 4096, true, true, true⟩

/-- The first byte is there from an earlier transfer. -/
theorem resumed_transfer_second_byte :
    (transfer twoBytes (holding [1]) wholeLink).sent = .ok 1 ∧
    (transfer twoBytes (holding [1]) wholeLink).disk twoBytes.place = some [1, 2] := by
  have hsent : (transfer twoBytes (holding [1]) wholeLink).sent = .ok 1 := by decide +kernel
  have hreceived : (transfer twoBytes (holding [1]) wholeLink).received =
      .ok ⟨"alpha", "notes.txt", 2, twoBytes.place⟩ := by decide +kernel
  have hheld : Resumable twoBytes.file.content (holding [1] twoBytes.place) := by
    rw [holding, Function.update_self]
    exact .inl ⟨[2], rfl⟩
  exact ⟨hsent, (resumed_transfer twoBytes_readBack hsent hreceived).1.2 hheld⟩

/-- Other content of the same size is kept, and both sides report success. So is a shorter one, to
which the rest of the file is added. -/
theorem other_content_kept :
    (transfer twoBytes (holding [3, 4]) wholeLink).sent = .ok 0 ∧
    (transfer twoBytes (holding [3, 4]) wholeLink).received =
    .ok ⟨"alpha", "notes.txt", 2, twoBytes.place⟩ ∧
    (transfer twoBytes (holding [3, 4]) wholeLink).disk twoBytes.place = some [3, 4] ∧
    (transfer twoBytes (holding [3]) wholeLink).received = .ok ⟨"alpha", "notes.txt", 2, twoBytes.place⟩ ∧
    (transfer twoBytes (holding [3]) wholeLink).disk twoBytes.place = some [3, 2] := by
  refine ⟨?_, ?_, ?_, ?_, ?_⟩
  all_goals decide +kernel

/-! ## Trusted senders -/

/-- A transfer as it comes in: the identity that the session authenticated, and the bytes of the
metadata. -/
structure Incoming where
  peerNodeID : String
  stream : Bytes

variable {decode : Bytes → Option Metadata}

/-- The metadata of a node that claims a name, in a session of the identity `vx6_00`. -/
def claiming (name : String) : Incoming where
  peerNodeID := "vx6_00"
  stream := writeLengthPrefixed (bytes (marshalMetadata ⟨name, "notes.txt", 2⟩))

end Vx6.Transfer
