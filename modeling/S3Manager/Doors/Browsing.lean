import S3Manager.Storage.ClientChunks
import S3Manager.Ui.FolderWalk
import S3Manager.Web.Routes

/-! Browsing a bucket through the list route: the folders that opening directories
leads to, and the files that are shown in them. -/

set_option autoImplicit false

namespace S3Manager.Doors

open Python Utils Access Storage Ui Library

section Folders

variable (unicode : Unicode) (config : Dict) (conventions : Conventions) (store : Store)
  (role : Option Str) (bucketName : Str) (user : UserDict) (sizes : Nat → Int)

/-- A chunk of an open folder, from the list route with `client_load=1`. -/
def loadChunk (path : Str) (size : Int) (token : Option Str) : S3Program ClientLoad := do
  let answer ← Web.listFiles unicode config 0 role bucketName path user
    ⟨some size, token, true, none⟩
  match answer with
  | .clientLoad chunk => pure chunk
  | .files _ _ | .paginated _ => S3Program.raise .typeError []

/-- All chunks of a folder. -/
def FolderLoaded (path : Str) (chunks : List ClientLoad) : Prop :=
  ChunkRun conventions store (loadChunk unicode config role bucketName user path) sizes 0 none
    chunks

/-- The folders that are reached from the root by opening listed directories. -/
inductive Reached : Str → Prop where
  | root : Reached []
  | open {path : Str} {chunks : List ClientLoad} {entry : FileEntry} :
      Reached path →
      FolderLoaded unicode config conventions store role bucketName user sizes path chunks →
      entry ∈ (Screen.mk path chunks).directories →
      Reached ((Screen.mk path chunks).fullPath entry.name)

/-- The object of this key is shown as a file in a folder that is reached, in a
listing of its own bucket: the route takes a name in capitals for another bucket. -/
structure ShownAt (path key : Str) : Prop where
  own : sanitizeBucketName unicode bucketName = .ok bucketName
  reached : Reached unicode config conventions store role bucketName user sizes path
  shown : ∃ chunks,
    FolderLoaded unicode config conventions store role bucketName user sizes path chunks ∧
      ∃ chunk ∈ chunks, ∃ entry ∈ chunk.files, folderPrefix chunk.path ++ entry.name = key

end Folders

/-- A role without prefixes, for a bucket that it may use. -/
structure Unrestricted (config : Dict) (role : Option Str) (bucket : Str) (user : UserDict)
    (validated : Option Str) : Prop where
  checked : validateRoleAccess role user = .ok validated
  entry : ∃ found, findRole config validated = .ok found ∧ ∀ entry, found = some entry →
    roleAllowedPrefixes entry = .ok none ∧ ∃ allowed, roleAllowedBuckets entry config = .ok allowed ∧
      ∀ list, allowed = some list → .str bucket ∈ list

section Route

variable {unicode : Unicode} {config : Dict} {conventions : Conventions} {store : Store}
  {role validated : Option Str} {bucket path root : Str} {user : UserDict}
  {sizes : Nat → Int} {chunks : List ClientLoad}

theorem Unrestricted.prepared (unrestricted : Unrestricted config role bucket user validated)
    (unicode : Unicode) (path : Str) :
    prepareListPath unicode config role bucket user path = .ok ⟨path, none, validated⟩ := by
  obtain ⟨found, searched, grants⟩ := unrestricted.entry
  unfold prepareListPath
  rw [unrestricted.checked, result_bind_ok, searched, result_bind_ok]
  cases found with
  | none => rfl
  | some entry =>
      obtain ⟨noPrefixes, allowed, granted, bucketAllowed⟩ := grants entry rfl
      dsimp only
      rw [granted, result_bind_ok, checkBucket_ok_iff.mpr bucketAllowed, result_bind_ok, noPrefixes,
        result_bind_ok]

theorem sanitizeTarget_accepted (own : sanitizeBucketName unicode bucket = .ok bucket)
    (sanitized : sanitizePath path = .ok root) :
    Web.sanitizeTarget unicode bucket path = .ok (bucket, root) := by
  unfold Web.sanitizeTarget
  rw [own, result_bind_ok, sanitized]
  rfl

theorem sanitizeTarget_refused {exc : PyError}
    (own : sanitizeBucketName unicode bucket = .ok bucket)
    (refused : sanitizePath path = .error exc) :
    ∃ raised, Web.sanitizeTarget unicode bucket path = .error raised := by
  unfold Web.sanitizeTarget
  rw [own, result_bind_ok, refused]
  unfold Web.orBadRequest
  dsimp only [result_bind_error]
  split
  · exact ⟨_, rfl⟩
  · exact ⟨_, rfl⟩

theorem listFiles_chunk (own : sanitizeBucketName unicode bucket = .ok bucket)
    (sanitized : sanitizePath path = .ok root) (size : Int) (token : Option Str) :
    Web.listFiles unicode config 0 role bucket path user ⟨some size, token, true, none⟩ =
      loadFolder unicode config role bucket root user size token >>= fun chunk =>
        pure (.clientLoad chunk) := by
  have query : Web.ListQuery.checked ⟨some size, token, true, none⟩ = .ok [] := by
    simp [Web.ListQuery.checked, sanitizeSearchPrefix, Web.orBadRequest, result_bind_ok]
  unfold Web.listFiles
  rw [sanitizeTarget_accepted own sanitized, query]
  rfl

theorem loadChunk_iff (own : sanitizeBucketName unicode bucket = .ok bucket)
    {size : Int} {token : Option Str} {chunk : ClientLoad} :
    Returns conventions (loadChunk unicode config role bucket user path size token) store chunk
        store ↔
      ∃ root, sanitizePath path = .ok root ∧
        Returns conventions (loadFolder unicode config role bucket root user size token) store chunk
          store := by
  cases sanitized : sanitizePath path with
  | error exc =>
      obtain ⟨raised, target⟩ := sanitizeTarget_refused own sanitized
      constructor
      · intro ran
        unfold loadChunk Web.listFiles at ran
        rw [target] at ran
        cases (Prod.mk.inj ran).1
      · intro claim
        obtain ⟨root, same, _⟩ := claim
        cases same
  | ok root =>
      unfold loadChunk
      rw [listFiles_chunk own sanitized]
      constructor
      · intro ran
        refine ⟨root, rfl, ?_⟩
        obtain ⟨answer, between, first, second⟩ := returns_bind_cases ran
        obtain ⟨loaded, left, folder, kept⟩ := returns_bind_cases first
        obtain ⟨sameAnswer, between_eq⟩ := Prod.mk.inj kept
        obtain rfl := Except.ok.inj sameAnswer
        obtain ⟨sameChunk, left_eq⟩ := Prod.mk.inj second
        obtain rfl := Except.ok.inj sameChunk
        obtain rfl : left = between := congrArg World.store between_eq
        obtain rfl : left = store := congrArg World.store left_eq
        exact folder
      · intro claim
        obtain ⟨_, same, ran⟩ := claim
        obtain rfl := Except.ok.inj same
        exact returns_bind (returns_bind ran (returns_pure _)) (returns_pure _)

theorem loaded_iff (own : sanitizeBucketName unicode bucket = .ok bucket) :
    FolderLoaded unicode config conventions store role bucket user sizes path chunks ↔
      ∃ root, sanitizePath path = .ok root ∧
        ChunkRun conventions store (loadFolder unicode config role bucket root user) sizes 0 none
          chunks := by
  constructor
  · intro loaded
    cases sanitized : sanitizePath path with
    | error exc =>
        have never : ∀ size token chunk,
            ¬ Returns conventions (loadChunk unicode config role bucket user path size token) store
              chunk store := by
          intro size token chunk ran
          obtain ⟨root, same, _⟩ := (loadChunk_iff own).mp ran
          rw [sanitized] at same
          cases same
        cases loaded with
        | last ran _ => exact absurd ran (never _ _ _)
        | more ran _ _ _ => exact absurd ran (never _ _ _)
    | ok root =>
        refine ⟨root, rfl, ChunkRun.transfer (fun size token chunk ran => ?_) loaded⟩
        obtain ⟨_, same, folder⟩ := (loadChunk_iff own).mp ran
        rw [sanitized] at same
        rwa [Except.ok.inj same]
  · intro claim
    obtain ⟨root, sanitized, running⟩ := claim
    exact running.transfer fun size token chunk ran => (loadChunk_iff own).mpr ⟨root, sanitized, ran⟩

/-- The lines of a folder. -/
abbrev folderLines (store : Store) (bucket root : Str) : List Listed :=
  store.listing (levelParams bucket (folderPrefix root) none)

section Open

variable (unrestricted : Unrestricted config role bucket user validated)
  (own : sanitizeBucketName unicode bucket = .ok bucket)
include unrestricted own

theorem loaded_shows
    (loaded : FolderLoaded unicode config conventions store role bucket user sizes path chunks) :
    ∃ root, sanitizePath path = .ok root ∧
      ChunksShow root (folderPrefix root) chunks (folderLines store bucket root) := by
  obtain ⟨root, sanitized, running⟩ := (loaded_iff own).mp loaded
  obtain ⟨all, complete, shown⟩ := @folder_chunks unicode config conventions store role bucket
    root user _ (folderLines store bucket root) sizes (unrestricted.prepared unicode root) rfl rfl
  obtain rfl := running.unique complete
  exact ⟨root, sanitized, shown⟩

theorem loaded_exists (sanitized : sanitizePath path = .ok root) :
    ∃ chunks, FolderLoaded unicode config conventions store role bucket user sizes path chunks := by
  obtain ⟨all, complete, _⟩ := @folder_chunks unicode config conventions store role bucket
    root user _ (folderLines store bucket root) sizes (unrestricted.prepared unicode root) rfl rfl
  exact ⟨all, (loaded_iff own).mpr ⟨root, sanitized, complete⟩⟩

end Open

/-- The keys of a bucket. -/
def Keys (store : Store) (bucket key : Str) : Prop :=
  store.get? bucket key ≠ none

section Shown

variable {name key : Str}

theorem directory_line_iff :
    (∃ line ∈ folderLines store bucket root, ∃ entry,
      lineDirectory (folderPrefix root) line = some entry ∧ entry.name = name) ↔
      DirectoryAt (Keys store bucket) root name := by
  constructor
  · intro claim
    obtain ⟨line, listed, entry, shown, rfl⟩ := claim
    obtain ⟨commonPrefix, group, named⟩ := Option.bind_eq_some_iff.mp shown
    obtain rfl := group?_some group
    obtain ⟨⟨segment, plain, split⟩, key, below, present⟩ := (group_iff rfl).mp listed
    change commonPrefix = folderPrefix root ++ segment ++ ['/'] at split
    have segmentName : directoryName (folderPrefix root) commonPrefix = segment := by
      rw [split, List.append_assoc]
      exact directoryName_group _ plain
    rw [segmentName] at named
    dsimp only at named
    split at named
    · cases named
    · next live =>
        obtain rfl := Option.some.inj named
        have named : segment ≠ [] := by simpa using live
        exact ⟨named, plain, key, present, split ▸ below⟩
  · intro directory
    obtain ⟨key, present, below⟩ := directory.below
    have segmentName : directoryName (folderPrefix root) (folderPrefix root ++ name ++ ['/']) =
        name := by
      rw [List.append_assoc]
      exact directoryName_group _ directory.plain
    refine ⟨.group (folderPrefix root ++ name ++ ['/']), ?_, .directory name, ?_, rfl⟩
    · exact (group_iff rfl).mpr ⟨⟨name, directory.plain, rfl⟩, key, below, present⟩
    · change (if (directoryName _ _).isEmpty then none else some (FileEntry.directory _)) = _
      rw [segmentName, if_neg (by simpa using directory.named)]

theorem endsWith_plain (base : Str) (live : name ≠ []) (plain : '/' ∉ name) :
    endsWith (base ++ name) ['/'] = false := by
  rw [← Bool.not_eq_true, endsWith_slash_iff]
  intro ends
  obtain ⟨init, split⟩ := ends
  have kept := key_plain base live (rstripSlash_of_plain plain)
  rw [split] at kept
  exact rstripSlash_last kept

theorem file_line_iff (present : Keys store bucket key) :
    (∃ line ∈ folderLines store bucket root, ∃ entry,
      lineFile (folderPrefix root) line = some entry ∧ folderPrefix root ++ entry.name = key) ↔
      ∃ file, file ≠ [] ∧ '/' ∉ file ∧ key = folderPrefix root ++ file := by
  constructor
  · intro claim
    obtain ⟨line, listed, entry, shown, rfl⟩ := claim
    obtain ⟨object, single, named⟩ := Option.bind_eq_some_iff.mp shown
    obtain rfl := object?_some single
    obtain ⟨⟨rest, plain, split⟩, _⟩ := (object_iff rfl).mp ⟨object, listed, rfl⟩
    change object.key = folderPrefix root ++ rest at split
    dsimp only at named
    rw [split, dropBase, List.drop_left] at named
    split at named
    · cases named
    · split at named
      · cases named
      · next live =>
          obtain rfl := Option.some.inj named
          exact ⟨rest, by simpa using live, plain, rfl⟩
  · intro claim
    obtain ⟨file, live, plain, rfl⟩ := claim
    obtain ⟨object, listed, same⟩ := (@object_iff store
      (levelParams bucket (folderPrefix root) none) rfl (folderPrefix root ++ file)).mpr
        ⟨⟨file, plain, rfl⟩, present⟩
    have unmarked : isMarker object = false := by
      rw [isMarker, same, endsWith_plain _ live plain, Bool.false_and]
    refine ⟨.object object, listed, ⟨file, false, object.size, some object.lastModified⟩, ?_, rfl⟩
    change (if isMarker object then none else if (dropBase _ object.key).isEmpty then none
      else some (FileEntry.mk (dropBase _ object.key) _ _ _)) = _
    rw [unmarked, same, dropBase, List.drop_left, if_neg Bool.false_ne_true,
      if_neg (by simpa using live)]

end Shown

section Screens

variable {name : Str}

theorem screen_directory_iff :
    (∃ entry ∈ (Screen.mk path chunks).directories, entry.name = name) ↔
      ∃ entry ∈ chunks.flatMap ClientLoad.directories, entry.name = name := by
  constructor
  · intro claim
    obtain ⟨entry, member, named⟩ := claim
    exact ⟨entry, mem_distinctNames member, named⟩
  · intro claim
    obtain ⟨entry, member, rfl⟩ := claim
    exact distinctNames_name member (by simp)

theorem perm_filterMap_iff {shown : List FileEntry} {lines : List Listed}
    {view : Listed → Option FileEntry} {property : FileEntry → Prop}
    (same : shown.Perm (lines.filterMap view)) :
    (∃ entry ∈ shown, property entry) ↔
      ∃ line ∈ lines, ∃ entry, view line = some entry ∧ property entry := by
  constructor
  · intro claim
    obtain ⟨entry, member, holds⟩ := claim
    obtain ⟨line, listed, seen⟩ := List.mem_filterMap.mp (same.mem_iff.mp member)
    exact ⟨line, listed, entry, seen, holds⟩
  · intro claim
    obtain ⟨line, listed, entry, seen, holds⟩ := claim
    exact ⟨entry, same.mem_iff.mpr (List.mem_filterMap.mpr ⟨line, listed, seen⟩), holds⟩

theorem screen_directory_at
    (shown : ChunksShow root (folderPrefix root) chunks (folderLines store bucket root)) :
    (∃ entry ∈ (Screen.mk path chunks).directories, entry.name = name) ↔
      DirectoryAt (Keys store bucket) root name :=
  screen_directory_iff.trans ((perm_filterMap_iff shown.directories).trans directory_line_iff)

theorem screen_file_at {key : Str} (present : Keys store bucket key)
    (shown : ChunksShow root (folderPrefix root) chunks (folderLines store bucket root)) :
    (∃ chunk ∈ chunks, ∃ entry ∈ chunk.files, folderPrefix chunk.path ++ entry.name = key) ↔
      ∃ file, file ≠ [] ∧ '/' ∉ file ∧ key = folderPrefix root ++ file := by
  refine Iff.trans ?_ ((perm_filterMap_iff shown.files).trans (file_line_iff present))
  constructor
  · intro claim
    obtain ⟨chunk, member, entry, among, whole⟩ := claim
    rw [shown.path chunk member] at whole
    exact ⟨entry, List.mem_flatMap.mpr ⟨chunk, member, among⟩, whole⟩
  · intro claim
    obtain ⟨entry, among, whole⟩ := claim
    obtain ⟨chunk, member, inside⟩ := List.mem_flatMap.mp among
    exact ⟨chunk, member, entry, inside, by rw [shown.path chunk member]; exact whole⟩

theorem stripSlash_join {names : List Str} (segments : Segments '/' names) :
    stripSlash (joinNames names) = joinNames names := by
  have relative : ∀ rest, joinNames names ≠ '/' :: rest := by
    cases names with
    | nil => simp
    | cons first more =>
        obtain ⟨live, plain⟩ := segments first List.mem_cons_self
        cases more with
        | nil => simpa using not_slash_start live plain []
        | cons second later =>
            change ∀ rest, joinOn '/' (first :: second :: later) ≠ '/' :: rest
            rw [joinOn_cons first (by simp)]
            exact not_slash_start live plain _
  rw [stripSlash_of_head relative]
  exact rstripSlash_join segments

theorem joinPath_names {names : List Str} (segments : Segments '/' names) (live : name ≠ [])
    (plain : '/' ∉ name) : joinPath [joinNames names, name] = joinNames (names ++ [name]) := by
  have folder := stripSlash_join segments
  have single : stripSlash name = name := by
    have one : Segments '/' [name] := by
      intro other member
      rw [List.mem_singleton.mp member]
      exact ⟨live, plain⟩
    simpa [joinNames] using stripSlash_join one
  rw [joinPath_two, folder, single, if_neg live]
  by_cases none : names = []
  · simp [none, joinNames]
  · have some : joinNames names ≠ [] := fun empty => none ((joinOn_eq_nil_iff segments).mp empty)
    rw [if_neg some]
    exact (joinOn_snoc none name).symm

end Screens

theorem fullPath_names {names : List Str} {name : Str} (segments : Segments '/' names)
    (directory : DirectoryAt (Keys store bucket) root name) :
    (Screen.mk (joinNames names) chunks).fullPath name = joinNames (names ++ [name]) := by
  rw [Screen.fullPath]
  exact joinPath_names segments directory.named directory.plain

section Found

variable {key : Str} (unrestricted : Unrestricted config role bucket user validated)
include unrestricted

/-- Folders are reached by walking over listed names. -/
theorem reached_iff (own : sanitizeBucketName unicode bucket = .ok bucket) :
    Reached unicode config conventions store role bucket user sizes path ↔
      ∃ names, Walk (Keys store bucket) names ∧ path = joinNames names := by
  constructor
  · intro reached
    induction reached with
    | root => exact ⟨[], .start, rfl⟩
    | «open» _ loaded member ih =>
        obtain ⟨names, walk, rfl⟩ := ih
        obtain ⟨root, sanitized, shown⟩ := loaded_shows unrestricted own loaded
        have directory := (screen_directory_at shown).mp ⟨_, member, rfl⟩
        refine ⟨_, walk.open sanitized directory, ?_⟩
        exact fullPath_names walk.chain.segments directory
  · intro claim
    obtain ⟨names, walk, rfl⟩ := claim
    induction walk with
    | start => exact .root
    | «open» walk sanitized directory ih =>
        obtain ⟨chunks, loaded⟩ := @loaded_exists unicode config conventions store role validated
          bucket _ _ user sizes unrestricted own sanitized
        obtain ⟨root, again, shown⟩ := loaded_shows unrestricted own loaded
        obtain rfl := Except.ok.inj (sanitized.symm.trans again)
        obtain ⟨entry, member, rfl⟩ := (screen_directory_at shown).mpr directory
        have opened := Reached.open ih loaded member
        rwa [fullPath_names walk.chain.segments directory] at opened

theorem shownAt_iff (own : sanitizeBucketName unicode bucket = .ok bucket)
    (present : Keys store bucket key) :
    ShownAt unicode config conventions store role bucket user sizes path key ↔
      FoundAt (Keys store bucket) path key := by
  constructor
  · intro claim
    obtain ⟨_, reached, chunks, loaded, files⟩ := claim
    obtain ⟨root, sanitized, shown⟩ := loaded_shows unrestricted own loaded
    obtain ⟨file, live, plain, split⟩ := (screen_file_at present shown).mp files
    exact ⟨(reached_iff unrestricted own).mp reached, ⟨root, file, sanitized, live, plain, split⟩⟩
  · intro found
    obtain ⟨walked, root, file, sanitized, live, plain, split⟩ := found
    obtain ⟨chunks, loaded⟩ := @loaded_exists unicode config conventions store role validated
      bucket _ _ user sizes unrestricted own sanitized
    obtain ⟨_, again, shown⟩ := loaded_shows unrestricted own loaded
    obtain rfl := Except.ok.inj (sanitized.symm.trans again)
    exact ⟨own, (reached_iff unrestricted own).mpr walked, chunks, loaded,
      (screen_file_at present shown).mpr ⟨file, live, plain, split⟩⟩

/-- For every bucket and every role without prefixes: an object is shown in exactly one
folder iff the list route takes its bucket and its folder names can be browsed. -/
theorem shown_once_iff (present : Keys store bucket key) :
    (∃! path, ShownAt unicode config conventions store role bucket user sizes path key) ↔
      sanitizeBucketName unicode bucket = .ok bucket ∧ Browsable (Keys store bucket) key := by
  constructor
  · intro once
    have own := once.exists.elim fun _ shown => shown.own
    simp only [shownAt_iff unrestricted own present] at once
    exact ⟨own, (found_once_iff present).mp once⟩
  · intro claim
    obtain ⟨own, browsable⟩ := claim
    simp only [shownAt_iff unrestricted own present]
    exact (found_once_iff present).mpr browsable

/-- An object that trimming does not touch is shown in exactly one folder iff the route
lists its bucket, its key does not end in a slash, and `sanitize_path` accepts its
folder names. -/
theorem browsed_once_iff (present : Keys store bucket key)
    (unmoved : Unmoved (Keys store bucket) key) :
    (∃! path, ShownAt unicode config conventions store role bucket user sizes path key) ↔
      sanitizeBucketName unicode bucket = .ok bucket ∧ fileName key ≠ [] ∧
        CleanNames (folderNames key) := by
  rw [shown_once_iff unrestricted present, browsable_iff_clean unmoved]

end Found

end Route

section Samples

/-- A bucket with one object. -/
def oneObject (key : Str) : Store where
  bucketNames := [lit "data"]
  objects _ := OrderedMap.empty.insert key ⟨[1], none, []⟩
  now := []

theorem keys_oneObject {bucket key other : Str} :
    Keys (oneObject key) bucket other ↔ other = key := by
  rw [Keys, Store.get?, oneObject, OrderedMap.get?_insert]
  split
  · next same => simp [same]
  · next apart => exact ⟨fun found => absurd rfl found, fun same => absurd same.symm apart⟩

theorem anyUser_unrestricted (bucket : Str) : Unrestricted [] none bucket anyUser none where
  checked := rfl
  entry := ⟨none, rfl, fun _ found => by cases found⟩

theorem docs_prefix {text : Str} (within : text ++ ['/'] <+: lit "docs/a.txt") :
    text = lit "docs" := by
  have all : ∀ front ∈ (lit "docs/a.txt").inits, front.getLast? = some '/' → front = lit "docs/" := by
    decide
  have same := all _ ((List.mem_inits _ _).mpr within) (by simp)
  exact (List.append_inj' (same : text ++ ['/'] = lit "docs" ++ ['/']) rfl).1

theorem docs_unmoved : Unmoved (Keys (oneObject (lit "docs/a.txt")) (lit "data"))
    (lit "docs/a.txt") where
  tidy := by
    change ∀ name ∈ [lit "docs"], rstrip name = name
    decide
  left first rest split := by
    obtain ⟨rfl, _⟩ := List.cons.inj (split : [lit "docs"] = first :: rest)
    decide
  alone := by
    refine ⟨fun front name rest split other directory _ => ?_, fun other directory => ?_⟩
    · obtain ⟨key, present, below⟩ := directory.below
      obtain rfl := keys_oneObject.mp present
      change [lit "docs"] = front ++ name :: rest at split
      cases front with
      | nil =>
          obtain ⟨rfl, _⟩ := List.cons.inj split
          exact docs_prefix below
      | cons first more => simp at split
    · obtain ⟨key, present, below⟩ := directory.below
      obtain rfl := keys_oneObject.mp present
      have same := docs_prefix below
      have longer := congrArg List.length same
      change (lit "docs/" ++ other).length = (lit "docs").length at longer
      simp [lit] at longer

theorem docs_clean : CleanNames (folderNames (lit "docs/a.txt")) := by
  change CleanNames [lit "docs"]
  have printable : (lit "docs").all (fun c => !isControl c) = true := rfl
  refine ⟨by decide, by decide, fun name member c within => ?_⟩
  rw [List.mem_singleton.mp member] at within
  simpa using List.all_eq_true.mp printable c within

theorem browsed_once_docs :
    ∃! path, ShownAt Unicode.ascii [] Conventions.plain (oneObject (lit "docs/a.txt")) none
      (lit "data") anyUser (fun _ => 100) path (lit "docs/a.txt") :=
  (browsed_once_iff (anyUser_unrestricted _) (keys_oneObject.mpr rfl) docs_unmoved).mpr
    ⟨rfl, by decide, docs_clean⟩

/-- A folder name with two dots is listed, but the route refuses to open it. -/
theorem dots_not_browsed :
    Unrestricted [] none (lit "data") anyUser none ∧
      Keys (oneObject (lit "../a.txt")) (lit "data") (lit "../a.txt") ∧
      endsWith (lit "../a.txt") ['/'] = false ∧
      ¬ ∃ path, ShownAt Unicode.ascii [] Conventions.plain (oneObject (lit "../a.txt")) none
        (lit "data") anyUser (fun _ => 100) path (lit "../a.txt") := by
  have unrestricted := anyUser_unrestricted (lit "data")
  have present := (@keys_oneObject (lit "data") (lit "../a.txt") _).mpr rfl
  refine ⟨unrestricted, present, by decide, fun shown => ?_⟩
  obtain ⟨path, shown⟩ := shown
  obtain ⟨_, clean, _⟩ := foundAt_iff.mp ((shownAt_iff unrestricted shown.own present).mp shown)
  exact clean.dotless (lit "..") (by decide) List.infix_rfl

end Samples

end S3Manager.Doors
