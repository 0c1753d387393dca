import Vx6.Go.Path
import Vx6.Transfer.Files

/-!
# Where received files go

`ReceiveFileWithPolicy` on a tree of directories and files without symbolic links. The sender chooses the
name of the node and of the file, and the session authenticates the node ID. The directory of the sender
is one component made of that name and the ID; the file is the last component of the file name in it.
Where that component is `.`, `..` or `/` the path is a directory, which is not opened for writing.

`received_files_isolated`: what is written lies below the directory of the sender, different node IDs
have different directories, and a sender neither changes the files of another one nor learns their sizes.
-/

set_option autoImplicit false

namespace Vx6.Transfer

open Vx6.Go Vx6.Lib Vx6.Record Vx6.Secure

/-! ## Directories and files -/

/-- What is found at a path. -/
inductive Entry where
  | dir
  | file (content : Bytes)
  deriving DecidableEq

/-- A tree of directories and files. -/
abbrev Tree := CleanPath → Option Entry

/-- The tree with the directories on the way to `dir` down to a depth. -/
def Tree.withDirs (t : Tree) (dir : CleanPath) (depth : Nat) : Tree := fun p =>
  if p.above dir && decide (p.stack.length ≤ depth) && (t p).isNone then some .dir else t p

/-- There is a file on the way to a directory. -/
def Tree.blocked (t : Tree) (dir : CleanPath) : Bool :=
  dir.stack.tails.any fun stack =>
    match t ⟨dir.rooted, stack⟩ with
    | some (.file _) => true
    | _ => false

/-- `os.MkdirAll`. It fails where a file is in the way, and may fail otherwise at a depth. -/
def Tree.mkdirAll (t : Tree) (dir : CleanPath) (fault : Option Nat) : Tree × Bool :=
  if fault.isNone && !t.blocked dir then (t.withDirs dir dir.stack.length, true)
  else (t.withDirs dir (fault.getD 0), false)

/-- `os.OpenFile` for writing: the content from which the file goes on. A directory is not opened. -/
def Tree.openFile (t : Tree) (p : CleanPath) (truncate opens : Bool) : Option Bytes :=
  if !opens then none
  else
    match t p with
    | some .dir => none
    | some (.file content) => some (if truncate then [] else content)
    | none => some []

/-! ## The receiver -/

/-- The receiver and its system: the data directory, `json.Unmarshal` into a `metadata`, the size that is
reported for a directory, and what fails. -/
structure Receiver where
  dataDir : String
  decode : Bytes → Option Metadata
  dirSize : Int := 4096
  quote : String → String := id
  policy : ReceivePolicy
  mkdirFault : Option Nat := none
  answers : Bool := true
  opens : Bool := true

/-- The directory of a sender. -/
def senderDir (dataDir nodeName nodeID : String) : CleanPath :=
  (CleanPath.clean dataDir).enter (sanitizeReceiverDirName nodeName nodeID)

/-- The size that `os.Stat` reports. -/
def Receiver.statSize (r : Receiver) : Option Entry → Option Int
  | none => none
  | some .dir => some r.dirSize
  | some (.file content) => some content.length

/-- The offset from the size of what is there. -/
def offsetFrom (size : Option Int) (fileSize : Int) : Int :=
  let offset : Int := match size with
    | none => 0
    | some size => if size = fileSize then size else if 0 < size ∧ size < fileSize then size else 0
  if fileSize < offset then 0 else offset

/-- What a transfer reports and answers, and the tree afterwards. -/
structure Received where
  result : Except TransferError (Metadata × CleanPath × Int)
  answer : Bytes
  tree : Tree

/-- `ReceiveFileWithPolicy` from the place on where the directory was made. `reply` is what the sender
sends behind the metadata once it has the answer. -/
def Receiver.store (r : Receiver) (t : Tree) (dir : CleanPath) (m : Metadata) (rest : Bytes)
    (reply : Bytes → Bytes) : Received :=
  let filePath := dir.enter (base m.fileName)
  let offset := offsetFrom (r.statSize (t filePath)) m.fileSize
  if !r.answers then ⟨.error .writeAnswer, [], t⟩
  else
    let answer := writeResumeState { offset := offset }
    match t.openFile filePath (offset = 0) r.opens with
    | none => ⟨.error .createFile, answer, t⟩
    | some content =>
      let wanted := (m.fileSize - offset).toNat
      let data := (rest ++ reply answer).take wanted
      let t := Function.update t filePath (some (.file (writeAt content offset.toNat data)))
      if data.length < wanted then ⟨.error .receiveStream, answer, t⟩
      else ⟨.ok (m, filePath, offset + data.length), answer, t⟩

/-- `ReceiveFileWithPolicy` over a session with the node `peerNodeID`. -/
def Receiver.receive (r : Receiver) (peerNodeID : String) (t : Tree) (stream : Bytes)
    (reply : Bytes → Bytes) : Received :=
  match readMetadata r.decode stream with
  | .error e => ⟨.error e, [], t⟩
  | .ok (m, rest) =>
    match r.policy.authorize m.nodeName with
    | .error e => ⟨.error e, writeResumeState { denied := refusal r.quote e }, t⟩
    | .ok () =>
      let dir := senderDir r.dataDir m.nodeName peerNodeID
      let (t, made) := t.mkdirAll dir r.mkdirFault
      if made then r.store t dir m rest reply else ⟨.error .createDirectory, [], t⟩

/-! ## Components -/

theorem cleanDirChar_ne_slash (c : Char) : cleanDirChar c ≠ '/' := by
  rw [cleanDirChar]
  split_ifs with h
  · decide
  · rintro rfl
    exact h (by decide)

theorem toList_sanitize (nodeName nodeID : String) : ∃ name : List Char,
    (sanitizeReceiverDirName nodeName nodeID).toList =
      name.map cleanDirChar ++ '_' :: ((if nodeID = "" then "unknownid" else nodeID).toList.map
        cleanDirChar ++ ['_', 'v', 'x', '6']) :=
  ⟨(if nodeName = "" then "unknown" else nodeName).toList, by simp [sanitizeReceiverDirName]⟩

/-- The name of the directory is one component. -/
theorem proper_sanitize (nodeName nodeID : String) :
    CleanPath.Proper (sanitizeReceiverDirName nodeName nodeID) := by
  obtain ⟨name, hname⟩ := toList_sanitize nodeName nodeID
  have hlong : 5 ≤ (sanitizeReceiverDirName nodeName nodeID).toList.length := by
    rw [hname]
    simp only [List.length_append, List.length_cons, List.length_nil]
    omega
  refine ⟨?_, ?_, ?_, ?_⟩
  · intro heq
    rw [heq] at hlong
    exact absurd hlong (by decide)
  · intro heq
    rw [heq] at hlong
    exact absurd hlong (by decide)
  · intro heq
    rw [heq] at hlong
    exact absurd hlong (by decide)
  · have hclean : ∀ l : List Char, '/' ∉ l.map cleanDirChar := by
      intro l hmem
      obtain ⟨c, -, hc⟩ := List.mem_map.1 hmem
      exact cleanDirChar_ne_slash c hc
    rw [hname]
    simp only [List.mem_append, List.mem_cons, not_or]
    exact ⟨hclean _, by decide, hclean _, by decide, by decide, by decide, by decide, List.not_mem_nil⟩

theorem senderDir_eq (dataDir nodeName nodeID : String) : senderDir dataDir nodeName nodeID =
    ⟨(CleanPath.clean dataDir).rooted,
      sanitizeReceiverDirName nodeName nodeID :: (CleanPath.clean dataDir).stack⟩ :=
  (proper_sanitize nodeName nodeID).enter _

/-- The last component of a file name. -/
theorem base_cases (path : String) :
    base path = "." ∨ base path = ".." ∨ base path = "/" ∨ CleanPath.Proper (base path) := by
  by_cases hempty : path = ""
  · exact .inl (by rw [base, if_pos hempty])
  · by_cases hname : ((path.toList.reverse.dropWhile (· = '/')).takeWhile (· ≠ '/')).reverse = []
    · refine .inr (.inr (.inl ?_))
      rw [base, if_neg hempty]
      exact if_pos hname
    · have hbase : base path =
          String.ofList ((path.toList.reverse.dropWhile (· = '/')).takeWhile (· ≠ '/')).reverse := by
        rw [base, if_neg hempty]
        exact if_neg hname
      by_cases hdot : base path = "."
      · exact .inl hdot
      by_cases hdots : base path = ".."
      · exact .inr (.inl hdots)
      refine .inr (.inr (.inr ⟨?_, hdot, hdots, ?_⟩))
      · rw [hbase]
        simpa using hname
      · rw [hbase, String.toList_ofList, List.mem_reverse]
        intro hmem
        exact absurd (List.mem_takeWhile_imp hmem) (by decide)

/-- The file is an entry of the directory of the sender, or its path is a directory on the way to it. -/
theorem filePath_cases (dataDir nodeName nodeID fileName : String) :
    ((senderDir dataDir nodeName nodeID).enter (base fileName)).above
        (senderDir dataDir nodeName nodeID) = true ∨
      ∃ name, (senderDir dataDir nodeName nodeID).enter (base fileName) =
        ⟨(senderDir dataDir nodeName nodeID).rooted,
          name :: (senderDir dataDir nodeName nodeID).stack⟩ := by
  have hsingle : ∀ part : String, '/' ∉ part.toList → ∀ p : CleanPath,
      p.enter part = { p with stack := CleanPath.push p.rooted p.stack part } :=
    fun part h p => p.enter_single h
  rw [senderDir_eq]
  rcases base_cases fileName with h | h | h | h
  · left
    rw [h, hsingle _ (by decide), CleanPath.above_iff]
    exact ⟨rfl, List.suffix_rfl⟩
  · -- the parent of the directory is the data directory
    left
    rw [h, hsingle _ (by decide), CleanPath.above_iff]
    refine ⟨rfl, ?_⟩
    simp [CleanPath.push, (proper_sanitize nodeName nodeID).ne_dots]
  · left
    rw [h, CleanPath.above_iff]
    exact ⟨rfl, List.suffix_rfl⟩
  · exact .inr ⟨_, h.enter _⟩

/-! ## What a transfer changes -/

section Changes

variable {t t' : Tree} {dir p : CleanPath} {fault : Option Nat} {r : Receiver}

/-- `MkdirAll` changes nothing but to make directories on the way. -/
theorem mkdirAll_changes (t : Tree) (dir : CleanPath) (fault : Option Nat) (p : CleanPath) :
    (t.mkdirAll dir fault).1 p = t p ∨
      p.above dir = true ∧ t p = none ∧ (t.mkdirAll dir fault).1 p = some .dir := by
  have hdirs : ∀ depth, t.withDirs dir depth p = t p ∨
      p.above dir = true ∧ t p = none ∧ t.withDirs dir depth p = some .dir := by
    intro depth
    simp only [Tree.withDirs]
    split_ifs with hmade
    · simp only [Bool.and_eq_true, Option.isNone_iff_eq_none] at hmade
      exact .inr ⟨hmade.1.1, hmade.2, rfl⟩
    · exact .inl rfl
  rw [Tree.mkdirAll]
  split_ifs
  · exact hdirs _
  · exact hdirs _

/-- After `MkdirAll` has succeeded, all that is on the way is a directory. -/
theorem mkdirAll_dirs (h : (t.mkdirAll dir fault).2 = true) (hp : p.above dir = true) :
    (t.mkdirAll dir fault).1 p = some .dir := by
  rw [Tree.mkdirAll] at h ⊢
  split_ifs at h ⊢ with hclear
  simp only [Bool.and_eq_true, Bool.not_eq_true'] at hclear
  obtain ⟨hrooted, hsuffix⟩ := CleanPath.above_iff.1 hp
  simp only [Tree.withDirs]
  cases hentry : t p with
  | none => simp [hp, hsuffix.length_le]
  | some entry =>
    cases entry with
    | dir => simp
    | file content =>
      -- the file would be in the way
      have hblocked : t.blocked dir = true := by
        refine List.any_eq_true.2 ⟨p.stack, (List.mem_tails _ _).2 hsuffix, ?_⟩
        rw [← hrooted, hentry]
      rw [hblocked] at hclear
      cases hclear.2

theorem openFile_dir (h : t p = some .dir) (truncate opens : Bool) :
    t.openFile p truncate opens = none := by
  rw [Tree.openFile, h]
  split_ifs <;> rfl

/-- What is written is the file, and not a directory on the way. -/
theorem store_changes (hdirs : ∀ q, q.above dir = true → t q = some .dir) (m : Metadata) (rest : Bytes)
    (reply : Bytes → Bytes) (p : CleanPath) : (r.store t dir m rest reply).tree p = t p ∨
      p = dir.enter (base m.fileName) ∧ ¬ p.above dir = true := by
  by_cases hpath : p = dir.enter (base m.fileName)
  · by_cases habove : p.above dir = true
    · left
      have hopen := openFile_dir (hdirs p habove)
      rw [hpath] at hopen ⊢
      simp only [Receiver.store, hopen]
      split_ifs <;> rfl
    · exact .inr ⟨hpath, habove⟩
  · left
    simp only [Receiver.store]
    cases r.answers with
    | false => rfl
    | true =>
      cases t.openFile (dir.enter (base m.fileName)) _ r.opens with
      | none => rfl
      | some content =>
        simp only [Bool.not_true, Bool.false_eq_true, if_false]
        split_ifs
        · exact Function.update_of_ne hpath _ _
        · exact Function.update_of_ne hpath _ _

/-- A transfer makes directories on the way to the directory of the sender and writes an entry of it. -/
theorem receive_changes (r : Receiver) (peerNodeID : String) (t : Tree) (stream : Bytes)
    (reply : Bytes → Bytes) {p : CleanPath} (h : (r.receive peerNodeID t stream reply).tree p ≠ t p) :
    ∃ m rest, readMetadata r.decode stream = .ok (m, rest) ∧
      ((p.above (senderDir r.dataDir m.nodeName peerNodeID) = true ∧ t p = none ∧
          (r.receive peerNodeID t stream reply).tree p = some .dir) ∨
        ∃ name, p = ⟨(senderDir r.dataDir m.nodeName peerNodeID).rooted,
          name :: (senderDir r.dataDir m.nodeName peerNodeID).stack⟩) := by
  rw [Receiver.receive] at h ⊢
  cases hread : readMetadata r.decode stream with
  | error e =>
    rw [hread] at h
    exact absurd rfl h
  | ok read =>
    obtain ⟨m, rest⟩ := read
    refine ⟨m, rest, rfl, ?_⟩
    rw [hread] at h
    dsimp only at h ⊢
    cases hauth : r.policy.authorize m.nodeName with
    | error e =>
      rw [hauth] at h
      exact absurd rfl h
    | ok u =>
      rw [hauth] at h
      dsimp only at h ⊢
      have hmkdir := mkdirAll_changes t (senderDir r.dataDir m.nodeName peerNodeID) r.mkdirFault p
      cases hmade : (t.mkdirAll (senderDir r.dataDir m.nodeName peerNodeID) r.mkdirFault).2 with
      | false =>
        rw [hmade, if_neg Bool.false_ne_true] at h
        rw [if_neg Bool.false_ne_true]
        exact .inl (hmkdir.resolve_left h)
      | true =>
        rw [hmade, if_pos rfl] at h
        rw [if_pos rfl]
        rcases store_changes (r := r) (fun q hq => mkdirAll_dirs hmade hq) m rest reply p with
          hsame | ⟨hpath, hnot⟩
        · rw [hsame] at h ⊢
          exact .inl (hmkdir.resolve_left h)
        · right
          rcases filePath_cases r.dataDir m.nodeName peerNodeID m.fileName with habove | ⟨name, hname⟩
          · rw [← hpath] at habove
            exact absurd habove hnot
          · exact ⟨name, hpath.trans hname⟩

/-! ## What a transfer learns -/

theorem mkdirAll_congr (fault : Option Nat) (h : ∀ q, q.above dir = true → t q = t' q) :
    (t.mkdirAll dir fault).2 = (t'.mkdirAll dir fault).2 ∧
      ∀ p, t p = t' p → (t.mkdirAll dir fault).1 p = (t'.mkdirAll dir fault).1 p := by
  have hblocked : t.blocked dir = t'.blocked dir := by
    rw [Tree.blocked, Tree.blocked, Bool.eq_iff_iff, List.any_eq_true, List.any_eq_true]
    refine exists_congr fun stack => and_congr_right fun hstack => ?_
    rw [h ⟨dir.rooted, stack⟩ (CleanPath.above_iff.2 ⟨rfl, (List.mem_tails _ _).1 hstack⟩)]
  have hdirs : ∀ depth p, t p = t' p → t.withDirs dir depth p = t'.withDirs dir depth p := by
    intro depth p hp
    simp only [Tree.withDirs, hp]
  rw [Tree.mkdirAll, Tree.mkdirAll, hblocked]
  split_ifs
  · exact ⟨rfl, hdirs _⟩
  · exact ⟨rfl, hdirs _⟩

theorem store_congr (m : Metadata) (rest : Bytes) (reply : Bytes → Bytes)
    (h : t (dir.enter (base m.fileName)) = t' (dir.enter (base m.fileName))) :
    (r.store t dir m rest reply).answer = (r.store t' dir m rest reply).answer ∧
      (r.store t dir m rest reply).result = (r.store t' dir m rest reply).result := by
  have hopen : ∀ truncate, t.openFile (dir.enter (base m.fileName)) truncate r.opens =
      t'.openFile (dir.enter (base m.fileName)) truncate r.opens := by
    intro truncate
    rw [Tree.openFile, h]
    rfl
  simp only [Receiver.store, h, hopen]
  cases r.answers with
  | false => exact ⟨rfl, rfl⟩
  | true =>
    cases t'.openFile (dir.enter (base m.fileName)) _ r.opens with
    | none => exact ⟨rfl, rfl⟩
    | some content =>
      simp only [Bool.not_true, Bool.false_eq_true, if_false]
      split_ifs
      · exact ⟨rfl, rfl⟩
      · exact ⟨rfl, rfl⟩

/-- What is answered and reported depends on the directory of the sender, the way to it and the file. -/
theorem receive_congr (r : Receiver) (peerNodeID : String) (stream : Bytes) (reply : Bytes → Bytes)
    (h : ∀ nodeName p, (p.above (senderDir r.dataDir nodeName peerNodeID) = true ∨
      ∃ name, p = ⟨(senderDir r.dataDir nodeName peerNodeID).rooted,
        name :: (senderDir r.dataDir nodeName peerNodeID).stack⟩) → t p = t' p) :
    (r.receive peerNodeID t stream reply).answer = (r.receive peerNodeID t' stream reply).answer ∧
      (r.receive peerNodeID t stream reply).result = (r.receive peerNodeID t' stream reply).result := by
  simp only [Receiver.receive]
  cases readMetadata r.decode stream with
  | error e => exact ⟨rfl, rfl⟩
  | ok read =>
    obtain ⟨m, rest⟩ := read
    dsimp only
    cases r.policy.authorize m.nodeName with
    | error e => exact ⟨rfl, rfl⟩
    | ok u =>
      dsimp only
      obtain ⟨hmade, htree⟩ := mkdirAll_congr r.mkdirFault
        fun q hq => h m.nodeName q (.inl hq)
      rw [hmade]
      split_ifs
      · exact store_congr m rest reply
          (htree _ (h m.nodeName _ (filePath_cases r.dataDir m.nodeName peerNodeID m.fileName)))
      · exact ⟨rfl, rfl⟩

end Changes

/-! ## Different senders -/

theorem toList_nodeID (cr : Crypto) (pub : Bytes) :
    (nodeIDFromPublicKey cr pub).toList.length = 68 ∧
      (nodeIDFromPublicKey cr pub).toList.map cleanDirChar = (nodeIDFromPublicKey cr pub).toList := by
  have hchars : (nodeIDFromPublicKey cr pub).toList =
      ['v', 'x', '6', '_'] ++ hexChars (cr.sha256 pub).toList := by
    simp [nodeIDFromPublicKey, hexEncode_eq]
  have hdigit : ∀ n < 16, cleanDirChar (hexDigit n) = hexDigit n := by decide
  constructor
  · rw [hchars, List.length_append, length_hexChars, Vector.length_toList]
    rfl
  · rw [hchars, List.map_append]
    refine congrArg₂ (· ++ ·) (by decide) ?_
    refine (List.map_congr_left fun c hc => ?_).trans (List.map_id _)
    obtain ⟨n, hn, rfl⟩ := mem_hexChars hc
    exact hdigit n hn

/-- Different node IDs have different directories, whatever the names are: the ID has a fixed length and
stands at the end. -/
theorem nodeID_of_sanitize {cr : Crypto} {pub pub' : Bytes} {nodeName nodeName' : String}
    (h : sanitizeReceiverDirName nodeName (nodeIDFromPublicKey cr pub) =
      sanitizeReceiverDirName nodeName' (nodeIDFromPublicKey cr pub')) :
    nodeIDFromPublicKey cr pub = nodeIDFromPublicKey cr pub' := by
  obtain ⟨hlength, hclean⟩ := toList_nodeID cr pub
  obtain ⟨hlength', hclean'⟩ := toList_nodeID cr pub'
  have hne : ∀ key, nodeIDFromPublicKey cr key ≠ "" := by
    intro key hempty
    have hlen := (toList_nodeID cr key).1
    rw [hempty] at hlen
    cases hlen
  obtain ⟨name, hname⟩ := toList_sanitize nodeName (nodeIDFromPublicKey cr pub)
  obtain ⟨name', hname'⟩ := toList_sanitize nodeName' (nodeIDFromPublicKey cr pub')
  rw [if_neg (hne pub), hclean] at hname
  rw [if_neg (hne pub'), hclean'] at hname'
  have hlists := hname.symm.trans ((congrArg String.toList h).trans hname')
  have hends : '_' :: ((nodeIDFromPublicKey cr pub).toList ++ ['_', 'v', 'x', '6']) =
      '_' :: ((nodeIDFromPublicKey cr pub').toList ++ ['_', 'v', 'x', '6']) :=
    (List.append_inj' hlists (by simp [hlength, hlength'])).2
  have hids := (List.append_inj' (List.cons.inj hends).2 rfl).1
  rw [← String.ofList_toList (s := nodeIDFromPublicKey cr pub), hids, String.ofList_toList]

/-- The node ID of a session belongs to a key. -/
theorem key_of_readHello {rt : SessionRuntime} {stream : Bytes} {kind : UInt8} {h : Hello}
    (hread : Returns (readHello rt stream kind) h) :
    ∃ pub, nodeIDFromPublicKey rt.toCrypto pub = h.nodeID := by
  simp only [readHello, Crypto.verify, returns_bind_iff, returns_attempt_iff, returns_guarded_iff,
    returns_pure_iff, orReject_eq_ok, rejectIf_eq_ok] at hread
  obtain ⟨_, -, _, -, pub, -, _, -, _, -, -, hid, _, -, -, -, rfl⟩ := hread
  exact ⟨pub, by simpa using hid⟩

section Isolation

variable {dataDir nodeID nodeID' : String}

/-- What is in the directory of one sender is not touched by a transfer of the other. -/
theorem not_touched (hne : ∀ name name', sanitizeReceiverDirName name nodeID ≠
      sanitizeReceiverDirName name' nodeID') {nodeName nodeName' : String} {p : CleanPath}
    (hbelow : p.Below (senderDir dataDir nodeName' nodeID')) :
    ¬ (p.above (senderDir dataDir nodeName nodeID) = true ∨
      ∃ name, p = ⟨(senderDir dataDir nodeName nodeID).rooted,
        name :: (senderDir dataDir nodeName nodeID).stack⟩) := by
  rw [senderDir_eq] at hbelow ⊢
  rintro (habove | ⟨name, rfl⟩)
  · refine hbelow.not_above ?_ habove
    rw [List.length_cons, List.length_cons]
  · obtain ⟨-, name', front, heq⟩ := hbelow
    have hstack := (List.cons.inj heq).2
    -- both directories are entries of the data directory
    have hfront : front = [] := by
      have hlength := congrArg List.length hstack
      simp only [List.length_cons, List.length_append] at hlength
      exact List.length_eq_zero_iff.1 (by omega)
    rw [hfront, List.nil_append] at hstack
    exact hne nodeName nodeName' (List.cons.inj hstack).1

end Isolation

/-- Two sessions authenticated different nodes. Whatever the first one sends: a path that a transfer
changes is below the directory of that sender, or it is a directory that was made on the way there; the
nodes have different directories under all names; and the transfer neither changes what is in a
directory of the other node nor depends on it. -/
theorem received_files_isolated {rt : SessionRuntime} {hello hello' : Bytes} {kind kind' : UInt8}
    {h h' : Hello} (hread : Returns (readHello rt hello kind) h)
    (hread' : Returns (readHello rt hello' kind') h') (hne : h.nodeID ≠ h'.nodeID) (r : Receiver)
    (t : Tree) (stream : Bytes) (reply : Bytes → Bytes) :
    (∀ p, (r.receive h.nodeID t stream reply).tree p ≠ t p → ∃ m rest,
      readMetadata r.decode stream = .ok (m, rest) ∧
        (p.Below (senderDir r.dataDir m.nodeName h.nodeID) ∨
          p.above (senderDir r.dataDir m.nodeName h.nodeID) = true ∧ t p = none ∧
            (r.receive h.nodeID t stream reply).tree p = some .dir)) ∧
    (∀ name name', senderDir r.dataDir name h.nodeID ≠ senderDir r.dataDir name' h'.nodeID) ∧
    (∀ name' p, p.Below (senderDir r.dataDir name' h'.nodeID) →
      (r.receive h.nodeID t stream reply).tree p = t p) ∧
    ∀ t' : Tree, (∀ p, t p ≠ t' p → ∃ name', p.Below (senderDir r.dataDir name' h'.nodeID)) →
      (r.receive h.nodeID t stream reply).answer = (r.receive h.nodeID t' stream reply).answer ∧
        (r.receive h.nodeID t stream reply).result = (r.receive h.nodeID t' stream reply).result := by
  obtain ⟨pub, hpub⟩ := key_of_readHello hread
  obtain ⟨pub', hpub'⟩ := key_of_readHello hread'
  have hnames : ∀ name name', sanitizeReceiverDirName name h.nodeID ≠
      sanitizeReceiverDirName name' h'.nodeID := by
    intro name name' heq
    rw [← hpub, ← hpub'] at heq
    exact hne (hpub.symm.trans ((nodeID_of_sanitize heq).trans hpub'))
  refine ⟨?_, ?_, ?_, ?_⟩
  · intro p hp
    obtain ⟨m, rest, hmeta, hdir | ⟨name, hfile⟩⟩ := receive_changes r h.nodeID t stream reply hp
    · exact ⟨m, rest, hmeta, .inr hdir⟩
    · refine ⟨m, rest, hmeta, .inl ?_⟩
      rw [hfile]
      exact CleanPath.below_entry _ name
  · intro name name' heq
    rw [senderDir_eq, senderDir_eq] at heq
    exact hnames name name' (List.cons.inj (CleanPath.mk.inj heq).2).1
  · intro name' p hbelow
    by_contra hp
    obtain ⟨m, rest, -, hdir | hfile⟩ := receive_changes r h.nodeID t stream reply hp
    · exact not_touched hnames hbelow (.inl hdir.1)
    · exact not_touched hnames hbelow (.inr hfile)
  · intro t' hagree
    apply receive_congr
    intro nodeName p htouched
    by_contra hp
    obtain ⟨name', hbelow⟩ := hagree p hp
    exact not_touched hnames hbelow htouched

/-- The `hello` of the node with a key of one repeated byte. -/
def repeatedHello (cr : Crypto) (key : UInt8) : Hello where
  nodeID := nodeIDFromPublicKey cr (List.replicate 32 key)
  publicKey := stdEncoding.encodeToString (List.replicate 32 key)

/-- Sessions in which a `hello` is one byte, the byte of the key. -/
def byteSessions : SessionRuntime where
  sha256 bs := Vector.replicate 32 (bs.headD 0)
  ed25519Verify _ _ _ := true
  unmarshalHello payload :=
    payload.head?.map (repeatedHello ⟨fun bs => Vector.replicate 32 (bs.headD 0), fun _ _ _ => true⟩)

theorem readHello_byteSessions (key kind : UInt8) : Returns (readHello byteSessions [0, 0, 0, 1, key] kind)
    (repeatedHello byteSessions.toCrypto key) := by
  have hread : readLengthPrefixed [0, 0, 0, 1, key] maxHandshakeSize = .ok ([key], []) := rfl
  have hkey : stdEncoding.decodeString (repeatedHello byteSessions.toCrypto key).publicKey =
      some (List.replicate 32 key) := Base64.decodeString_encodeToString Base64.proper_std _
  have hblank : stdEncoding.decodeString "" = some [] := by decide
  simp only [readHello, Crypto.verify, returns_bind_iff, returns_attempt_iff, returns_guarded_iff,
    returns_pure_iff, orReject_eq_ok, rejectIf_eq_ok]
  refine ⟨_, hread, repeatedHello byteSessions.toCrypto key, rfl, _, hkey, [], hblank, [], hblank, (),
    ?_, true, ⟨List.length_replicate, rfl⟩, (), rfl, rfl⟩
  exact decide_eq_false (not_not.2 rfl)

/-- A receiver that takes files from everyone. -/
def openReceiver : Receiver where
  dataDir := "/data"
  decode := compactMetadata
  policy := ⟨receiveModeOpen, []⟩

/-- Node 1 calls itself `alpha` and sends two bytes. They are stored, and what node 2 has under that name
is as it was. -/
theorem received_files_isolated_alpha :
    ∃ h h' : Hello, Returns (readHello byteSessions [0, 0, 0, 1, 1] 1) h ∧
      Returns (readHello byteSessions [0, 0, 0, 1, 2] 1) h' ∧ h.nodeID ≠ h'.nodeID ∧
      (∃ p, (openReceiver.receive h.nodeID (fun _ => none) (claiming "alpha").stream
        fun _ => [1, 2]).tree p = some (.file [1, 2])) ∧
      (openReceiver.receive h.nodeID (fun _ => none) (claiming "alpha").stream fun _ => [1, 2]).tree
        ((senderDir "/data" "alpha" h'.nodeID).enter "notes.txt") = none := by
  have hne : (repeatedHello byteSessions.toCrypto 1).nodeID ≠
      (repeatedHello byteSessions.toCrypto 2).nodeID := by
    decide
  have hisolated := received_files_isolated (readHello_byteSessions 1 1)
    (readHello_byteSessions 2 1) hne openReceiver (fun _ => none)
    (claiming "alpha").stream fun _ => [1, 2]
  have hproper : CleanPath.Proper "notes.txt" := ⟨by decide, by decide, by decide, by decide⟩
  refine ⟨_, _, readHello_byteSessions 1 1, readHello_byteSessions 2 1, hne, ⟨(senderDir "/data" "alpha"
    (repeatedHello byteSessions.toCrypto 1).nodeID).enter "notes.txt", by decide +kernel⟩, ?_⟩
  refine hisolated.2.2.1 "alpha" _ ?_
  rw [hproper.enter]
  exact CleanPath.below_entry _ _

end Vx6.Transfer
