import S3Manager.Mcp.ReadFile
import S3Manager.Storage.StoreRuns

/-! What `read_file` gives back of a text object: its text, whole, wherever the sample is cut
and with or without a byte-order mark. The one text that it cannot read is the empty one,
under a name that calls for a sample. -/

set_option autoImplicit false

namespace S3Manager.Mcp

open Python Access Storage Library

section Samples

variable {text : Str}

/-- A sample of a text is taken for text, also when it ends within a character. -/
theorem sample_accepted (plain : 0 ∉ (utf8Encode text).take 1024) :
    isLikelyTextSample ((utf8Encode text).take 8192) = true := by
  have clean : (((utf8Encode text).take 8192).take 1024).contains 0 = false := by
    rw [List.take_take]
    simpa using plain
  obtain ⟨front, back, part, -, taken, short⟩ := utf8Encode_take text 8192
  rw [isLikelyTextSample, clean, if_neg (by simp), taken]
  cases part with
  | nil => simp [utf8Decode_encode]
  | cons first rest =>
      -- Cutting off the incomplete character leaves the characters before it.
      have cut : dropLast (utf8Encode front ++ first :: rest) (first :: rest).length =
          utf8Encode front := by
        rw [dropLast, List.length_append, Nat.add_sub_cancel, List.take_left]
      have among : (first :: rest).length ∈ [1, 2, 3] := by
        simp only [List.length_cons] at short ⊢
        simp only [List.mem_cons, List.not_mem_nil, or_false]
        omega
      have decodes : ([1, 2, 3].any fun cut =>
          (utf8Decode (dropLast (utf8Encode front ++ first :: rest) cut)).isSome) = true :=
        List.any_eq_true.mpr ⟨_, among, by rw [cut, utf8Decode_encode]; rfl⟩
      rw [decodes]
      exact ite_self _

def byteOrderMark : Bytes := [0xef, 0xbb, 0xbf]

theorem byteOrderMark_encodes : utf8Encode [Char.ofNat 0xfeff] = byteOrderMark := by decide

/-- The bytes of a text without their mark are the bytes of a text. -/
theorem stripBom_text (text : Str) :
    ∃ content, stripBom (utf8Encode text) = utf8Encode content ∧
      (utf8Encode text = utf8Encode content ∨
        utf8Encode text = byteOrderMark ++ utf8Encode content) := by
  unfold stripBom
  split_ifs with marked
  · have within : utf8Encode [Char.ofNat 0xfeff] <+: utf8Encode text := by
      rw [byteOrderMark_encodes]
      exact List.isPrefixOf_iff_prefix.mp marked
    obtain ⟨content, rfl⟩ := prefix_of_utf8Encode within
    have split : utf8Encode ([Char.ofNat 0xfeff] ++ content) =
        byteOrderMark ++ utf8Encode content := by
      rw [utf8Encode_append, byteOrderMark_encodes]
    exact ⟨content, by rw [split]; rfl, .inr split⟩
  · exact ⟨text, rfl, .inl rfl⟩

end Samples

section Names

variable {unicode : Unicode} {config : Dict} {path : Str} {classified : TextKind × Option Str}

/-- Binary by its name is only what has an extension on the list. -/
theorem classify_binary (found : classifyText unicode config path = .ok classified)
    (binary : classified.1 = .binaryKnown) :
    ∃ ext, dottedExtension (basenameOf unicode path) = some ext ∧
      knownBinaryExtensions.contains ext = true := by
  unfold classifyText at found
  dsimp only at found
  split_ifs at found with extensionless
  · obtain rfl := Except.ok.inj found
    cases binary
  · cases dotted : dottedExtension (basenameOf unicode path) with
    | none =>
        rw [dotted] at found
        obtain rfl := Except.ok.inj found
        cases binary
    | some ext =>
        rw [dotted] at found
        obtain ⟨custom, -, decided⟩ := bind_eq_ok_iff.mp found
        refine ⟨ext, rfl, ?_⟩
        split_ifs at decided with listed known sniffed
        all_goals first
          | exact known
          | (obtain rfl := Except.ok.inj decided; cases binary)

end Names

section Requests

variable {conventions : Conventions} {unicode : Unicode} {config : Dict}
  {role validated : Option Str} {bucket path : Str} {user : UserDict} {store : Store}
  {stored : Stored}

theorem returns_gatedCall {α : Type} {callback : S3Program α} {value : α} {after : Store}
    (granted : validateStorageAccess config role bucket user path = .ok validated)
    (returns : Returns conventions callback store value after) :
    Returns conventions (gatedCall unicode config role bucket path user callback) store value
      after := by
  rw [gatedCall, granted]
  exact returns_bind rfl (returns_retry returns)

theorem head_returns
    (granted : validateStorageAccess config role bucket user path = .ok validated)
    (found : store.get? bucket path = some stored) :
    Returns conventions (headObjectForRole unicode config role bucket path user) store
      stored.body.length store := by
  have answered : store.answer conventions (.headObject bucket path) =
      (.ok ⟨stored.body.length, some stored.lastModified, stored.contentType,
        some (conventions.digest stored.body)⟩, store) := by
    simp only [Store.answer, found]
  exact returns_gatedCall granted
    (returns_bind (returns_mapError (returns_call answered)) (returns_pure _))

theorem whole_returns
    (granted : validateStorageAccess config role bucket user path = .ok validated)
    (found : store.get? bucket path = some stored) :
    Returns conventions (readObjectForRole unicode config role bucket path user) store
      stored.body store := by
  have answered : store.answer conventions (.getObject bucket path none) =
      (.ok ⟨stored.body, stored.body.length, stored.contentType⟩, store) := by
    simp only [Store.answer, Store.getObject, found]
    rfl
  exact returns_gatedCall granted
    (returns_bind (returns_mapError (returns_call answered)) (returns_pure _))

theorem sample_returns
    (granted : validateStorageAccess config role bucket user path = .ok validated)
    (found : store.get? bucket path = some stored) (live : stored.body ≠ []) :
    Returns conventions (readObjectRangeForRole unicode config role bucket path 0 8191 user) store
      (stored.body.take 8192) store := by
  have some_ : ((stored.body.take (8191 + 1)).drop 0).isEmpty = false := by
    cases shape : stored.body with
    | nil => exact absurd shape live
    | cons first rest => rfl
  have answered : store.answer conventions (.getObject bucket path (some (0, 8191))) =
      (.ok ⟨(stored.body.take (8191 + 1)).drop 0, ((stored.body.take (8191 + 1)).drop 0).length,
        stored.contentType⟩, store) := by
    simp only [Store.answer, Store.getObject, found, some_, Bool.false_eq_true, if_false]
    rfl
  exact returns_gatedCall granted
    (returns_bind (returns_mapError (returns_call answered)) (returns_pure _))

/-- S3 has no range of an empty object to answer with. -/
theorem sample_refused
    (granted : validateStorageAccess config role bucket user path = .ok validated)
    (found : store.get? bucket path = some stored) (empty : stored.body = []) :
    ∃ exc, (readObjectRangeForRole unicode config role bucket path 0 8191 user).run conventions
      (calm store) = (.error exc, calm store) := by
  let exc := PyError.new (.clientError (lit "InvalidRange") 416) []
  have answered : store.answer conventions (.getObject bucket path (some (0, 8191))) =
      (.error exc, store) := by
    simp only [Store.answer, Store.getObject, found, empty]
    rfl
  have called : (S3Program.call (.getObject bucket path (some (0, 8191)))).run conventions
      (calm store) = (.error exc, calm store) := by
    show ((store.answer conventions _).1, (calm store).later (store.answer conventions _).2) = _
    rw [answered]
    rfl
  have kept : missingAs (objectNotFound bucket path) exc = exc := rfl
  refine ⟨afterRetry unicode exc, ?_⟩
  rw [readObjectRangeForRole, gatedCall, granted]
  refine Eq.trans (run_bind_returns rfl) (retry_raises ?_ rfl)
  rw [run_bind, run_mapError, called]
  simp only [kept]

end Requests

section Detection

variable {conventions : Conventions} {unicode : Unicode} {config : Dict}
  {role validated : Option Str} {bucket path : Str} {user : UserDict} {store after : Store}
  {stored : Stored} {size : Nat} {detection : Detection}

theorem detect_returns {classified : TextKind × Option Str}
    (granted : validateStorageAccess config role bucket user path = .ok validated)
    (found : store.get? bucket path = some stored)
    (likely : isLikelyTextSample (stored.body.take 8192) = true)
    (decided : classifyText unicode config path = .ok classified)
    (text : classified.1 ≠ .binaryKnown) (live : classified.1 = .sniff → stored.body ≠ []) :
    ∃ detection, Returns conventions
      (detectText unicode config role bucket path user false size) store detection store := by
  unfold detectText
  rw [decided]
  cases kind : classified.1 with
  | binaryKnown => exact absurd kind text
  | extension => exact ⟨.extension, returns_bind rfl (by rw [kind]; exact returns_pure _)⟩
  | extensionless => exact ⟨.extensionless, returns_bind rfl (by rw [kind]; exact returns_pure _)⟩
  | sniff =>
      refine ⟨.sniffed, returns_bind rfl ?_⟩
      rw [kind]
      refine returns_bind (sample_returns granted found (live kind)) ?_
      rw [likely]
      exact returns_pure _

/-- An object that was taken for text has a name that could be classified, and a byte where
the name was not enough. -/
theorem classified_of_detect
    (granted : validateStorageAccess config role bucket user path = .ok validated)
    (found : store.get? bucket path = some stored)
    (detected : Returns conventions (detectText unicode config role bucket path user false size)
      store detection after) :
    ∃ classified, classifyText unicode config path = .ok classified ∧
      (classified.1 = .sniff → stored.body ≠ []) := by
  obtain ⟨classified, between, read, rest⟩ := returns_bind_cases detected
  obtain ⟨decided, world⟩ := Prod.mk.inj read
  obtain rfl : store = between := congrArg World.store world
  refine ⟨classified, decided, fun kind empty => ?_⟩
  rw [kind] at rest
  obtain ⟨sample, left, sampled, -⟩ := returns_bind_cases rest
  obtain ⟨exc, refused⟩ := sample_refused granted found empty
  rw [Returns, refused] at sampled
  cases (Prod.mk.inj sampled).1

end Detection

section Reading

variable {conventions : Conventions} {unicode : Unicode} {config : Dict} {runtime : TextRuntime}
  {token : Token} {role validated : Option Str} {bucket path : Str} {user : UserDict}
  {store after : Store} {stored : Stored} {text : Str} {answer : ReadAnswer}

theorem headSize_returns
    (granted : validateStorageAccess config role bucket user path = .ok validated)
    (found : store.get? bucket path = some stored) :
    Returns conventions (headSize unicode config role bucket path user) store stored.body.length
      store :=
  returns_mapError (head_returns granted found)

theorem read_of_live {classified : TextKind × Option Str}
    (granted : validateStorageAccess config role bucket user path = .ok validated)
    (found : store.get? bucket path = some stored)
    (within : exceedsReadCap config token stored.body.length = .ok false)
    (encoded : stored.body = utf8Encode text)
    (likely : isLikelyTextSample (stored.body.take 8192) = true)
    (decided : classifyText unicode config path = .ok classified)
    (named : classified.1 ≠ .binaryKnown) (live : classified.1 = .sniff → stored.body ≠ []) :
    ∃ answer, Returns conventions
        (readFileResponse unicode config runtime token role bucket path user false) store answer
        store ∧
      (stored.body = utf8Encode answer.content ∨
        stored.body = byteOrderMark ++ utf8Encode answer.content) := by
  obtain ⟨content, stripped, whole⟩ := stripBom_text text
  rw [← encoded] at stripped whole
  obtain ⟨detection, detected⟩ :=
    @detect_returns conventions _ _ _ _ _ _ _ _ _ stored.body.length _ granted found likely decided
      named live
  have decodes : decodeRaw runtime false stored.body.length stored.body = .ok content := by
    simp only [decodeRaw, stripped, utf8Decode_encode, Bool.false_eq_true, if_false]
  obtain ⟨limit, capped, fits⟩ := exceedsReadCap_ok within
  refine ⟨⟨content, lit "utf-8", stored.body.length, detection, bucket, path⟩, ?_, whole⟩
  unfold readFileResponse
  rw [capped, ofResult_ok_bind]
  refine returns_mapError (returns_bind (headSize_returns granted found) ?_)
  unfold respondSized
  rw [fits, if_neg Bool.false_ne_true]
  refine returns_bind detected (returns_bind (whole_returns granted found) ?_)
  rw [decodes]
  exact returns_bind rfl (returns_pure _)

theorem live_of_read
    (granted : validateStorageAccess config role bucket user path = .ok validated)
    (found : store.get? bucket path = some stored)
    (within : exceedsReadCap config token stored.body.length = .ok false)
    (reads : Returns conventions
      (readFileResponse unicode config runtime token role bucket path user false) store answer
      after) :
    ∃ classified, classifyText unicode config path = .ok classified ∧
      (classified.1 = .sniff → stored.body ≠ []) := by
  obtain ⟨limit, capped, fits⟩ := exceedsReadCap_ok within
  unfold readFileResponse at reads
  rw [capped, ofResult_ok_bind] at reads
  have sized := returns_of_bind (headSize_returns granted found) (returns_mapError_inv reads)
  unfold respondSized at sized
  rw [fits, if_neg Bool.false_ne_true] at sized
  obtain ⟨detection, left, detected, -⟩ := returns_bind_cases sized
  exact classified_of_detect granted found detected

/-- An object within the cap that holds a text, with no NUL byte in front and no name of a
binary file, passes the sampling wherever its sample ends. It is read without loss exactly if
its name can be classified and, where the name is not enough, it is not empty. -/
theorem read_text_iff
    (granted : validateStorageAccess config role bucket user path = .ok validated)
    (found : store.get? bucket path = some stored)
    (within : exceedsReadCap config token stored.body.length = .ok false)
    (encoded : stored.body = utf8Encode text) (plain : 0 ∉ stored.body.take 1024)
    (unlisted : ∀ ext, dottedExtension (basenameOf unicode path) = some ext →
      knownBinaryExtensions.contains ext = false) :
    isLikelyTextSample (stored.body.take 8192) = true ∧
      ((∃ answer, Returns conventions
            (readFileResponse unicode config runtime token role bucket path user false) store
            answer store ∧
          (stored.body = utf8Encode answer.content ∨
            stored.body = byteOrderMark ++ utf8Encode answer.content)) ↔
        ∃ classified, classifyText unicode config path = .ok classified ∧
          (classified.1 = .sniff → stored.body ≠ [])) := by
  have likely : isLikelyTextSample (stored.body.take 8192) = true := by
    rw [encoded] at plain ⊢
    exact sample_accepted plain
  refine ⟨likely, ?_, ?_⟩
  · rintro ⟨answer, reads, -⟩
    exact live_of_read granted found within reads
  · rintro ⟨classified, decided, live⟩
    refine read_of_live granted found within encoded likely decided (fun binary => ?_) live
    obtain ⟨ext, dotted, listed⟩ := classify_binary decided binary
    rw [unlisted ext dotted] at listed
    cases listed

/-- A role without restrictions, a token for small files, and a bucket of one object. -/
def readConfig : Dict :=
  [(lit "roles", .arr [.obj [(lit "name", .str (lit "team")), (lit "type", .str (lit "default"))]])]

def readUser : UserDict where
  isAdmin := false
  allowedRoles := [lit "team"]
  defaultRole := none

def smallReads : Token where
  isReadOnly := true
  maxReadBytes := 2

def plainRuntime : TextRuntime where
  decodeReplacing raw := (utf8Decode raw).getD [Char.ofNat 0xfffd]
  floatText _ := lit "0.5"

def oneObject (path : Str) (body : Bytes) : Store where
  bucketNames := [lit "data"]
  objects _ := OrderedMap.empty.insert path ⟨body, none, []⟩
  now := []

theorem two_letters_read :
    isLikelyTextSample ([104, 105].take 8192) = true ∧
      ((∃ answer, Returns Conventions.plain
            (readFileResponse Unicode.ascii readConfig plainRuntime smallReads (some (lit "team"))
              (lit "data") (lit "notes") readUser false)
            (oneObject (lit "notes") [104, 105]) answer (oneObject (lit "notes") [104, 105]) ∧
          ([104, 105] = utf8Encode answer.content ∨
            [104, 105] = byteOrderMark ++ utf8Encode answer.content)) ↔
        ∃ classified, classifyText Unicode.ascii readConfig (lit "notes") = .ok classified ∧
          (classified.1 = .sniff → ([104, 105] : Bytes) ≠ [])) :=
  @read_text_iff Conventions.plain Unicode.ascii readConfig plainRuntime smallReads
    (some (lit "team")) (some (lit "team")) (lit "data") (lit "notes") readUser
    (oneObject (lit "notes") [104, 105]) ⟨[104, 105], none, []⟩ (lit "hi") rfl rfl rfl rfl
    (by decide) (fun ext dotted => by
      have bare : dottedExtension (basenameOf Unicode.ascii (lit "notes")) = none := by decide
      rw [bare] at dotted
      cases dotted)

/-- An empty object whose name says nothing is within every cap and cannot be read. -/
theorem empty_notes_unreadable :
    ¬ ∀ (unicode : Unicode) (config : Dict) (runtime : TextRuntime) (token : Token)
        (role validated : Option Str) (bucket path : Str) (user : UserDict)
        (conventions : Conventions) (store : Store) (stored : Stored) (text : Str),
        validateStorageAccess config role bucket user path = .ok validated →
        store.get? bucket path = some stored →
        exceedsReadCap config token stored.body.length = .ok false →
        stored.body = utf8Encode text → 0 ∉ stored.body.take 1024 →
        (∀ ext, dottedExtension (basenameOf unicode path) = some ext →
          knownBinaryExtensions.contains ext = false) →
        ∃ answer, Returns conventions
            (readFileResponse unicode config runtime token role bucket path user false) store answer
            store ∧
          (stored.body = utf8Encode answer.content ∨
            stored.body = byteOrderMark ++ utf8Encode answer.content) := by
  intro all
  have bare : dottedExtension (basenameOf Unicode.ascii (lit "notes")) = none := by decide
  have granted : validateStorageAccess readConfig (some (lit "team")) (lit "data") readUser
      (lit "notes") = .ok (some (lit "team")) := rfl
  have found : (oneObject (lit "notes") []).get? (lit "data") (lit "notes") =
      some ⟨[], none, []⟩ := rfl
  obtain ⟨answer, reads, -⟩ := all Unicode.ascii readConfig plainRuntime smallReads _ _ _ _
    readUser Conventions.plain _ _ [] granted found rfl rfl (by decide)
    (fun ext dotted => by rw [bare] at dotted; cases dotted)
  obtain ⟨classified, decided, live⟩ := live_of_read granted found rfl reads
  have sampled : classifyText Unicode.ascii readConfig (lit "notes") = .ok (.sniff, none) := by
    rw [classifyText, bare]
    rfl
  rw [sampled] at decided
  obtain rfl := Except.ok.inj decided
  exact live rfl rfl

end Reading

end S3Manager.Mcp
