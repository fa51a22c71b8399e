import Mathlib.Data.List.Dedup
import Mathlib.Data.List.Perm.Basic
import S3Manager.Storage.FolderLines

/-! The chunked listing against the plain one: chunk by chunk it shows the same
entries, whatever the sizes of the chunks are. -/

set_option autoImplicit false

namespace S3Manager.Storage

open Python Access Library

section Entries

variable {store : Store} {params : ListParams} {base : Str}

/-- The directory that a line is shown as. -/
def lineDirectory (base : Str) (line : Listed) : Option FileEntry :=
  line.group?.bind fun commonPrefix =>
    let name := directoryName base commonPrefix
    if name.isEmpty then none else some (.directory name)

/-- The file that a line is shown as. -/
def lineFile (base : Str) (line : Listed) : Option FileEntry :=
  line.object?.bind fun object =>
    if isMarker object then none
    else
      let name := dropBase base object.key
      if name.isEmpty then none else some ⟨name, false, object.size, some object.lastModified⟩

/-- The entries of a folder with these lines. -/
def lineEntries (base : Str) (lines : List Listed) : List FileEntry :=
  lines.filterMap (lineDirectory base) ++ lines.filterMap (lineFile base)

theorem pageDirectories_shows {replies : List ListPage} {lines : List Listed}
    (shows : Shows replies lines) :
    replies.flatMap (pageDirectories base) = lines.filterMap (lineDirectory base) := by
  have split : lines.filterMap (lineDirectory base) =
      (lines.filterMap Listed.group?).filterMap fun commonPrefix =>
        let name := directoryName base commonPrefix
        if name.isEmpty then none else some (.directory name) :=
    (List.filterMap_filterMap ..).symm
  rw [split, ← shows.commonPrefixes, List.filterMap_flatMap]
  rfl

theorem pageFiles_shows {replies : List ListPage} {lines : List Listed}
    (shows : Shows replies lines) :
    replies.flatMap (pageFiles base) = lines.filterMap (lineFile base) := by
  have split : lines.filterMap (lineFile base) =
      (lines.filterMap Listed.object?).filterMap fun object =>
        if isMarker object then none
        else
          let name := dropBase base object.key
          if name.isEmpty then none else some ⟨name, false, object.size, some object.lastModified⟩ :=
    (List.filterMap_filterMap ..).symm
  rw [split, ← shows.contents, List.filterMap_flatMap]
  rfl

end Entries

section Names

variable {store : Store} {params : ListParams}

theorem directoryName_group (base : Str) {front : Str} (plain : '/' ∉ front) :
    directoryName base (base ++ (front ++ ['/'])) = front := by
  have kept : rstripSlash front = front := by
    refine rstripSlash_eq_self ?_
    rw [← Bool.not_eq_true]
    intro ends
    obtain ⟨init, rfl⟩ := endsWith_slash_iff.mp ends
    exact plain (by simp)
  rw [directoryName, dropBase, List.drop_left]
  simpa [rstripSlash, isSlash] using kept

theorem group_name (slash : params.delimiter = some ['/']) {commonPrefix : Str}
    (line : .group commonPrefix ∈ store.listing params) :
    commonPrefix =
      params.searchPrefix ++ (directoryName params.searchPrefix commonPrefix ++ ['/']) := by
  obtain ⟨entry, -, under, shown⟩ := mem_listing.mp line
  obtain ⟨key, stored⟩ := entry
  obtain ⟨rest, rfl⟩ := under
  by_cases below : '/' ∈ rest
  · rw [listed_of_slash slash stored below] at shown
    obtain rfl := Listed.group.inj shown
    obtain ⟨front, tail, rfl, plain⟩ := split_slash below
    rw [level_of_slash tail plain, directoryName_group _ plain]
  · rw [listed_of_plain slash stored below] at shown
    cases shown

theorem directoryNames_nodup (slash : params.delimiter = some ['/']) {lines : List Listed}
    (inside : ∀ line ∈ lines, line ∈ store.listing params)
    (ascending : Paging.Ascending Listed.name lines) :
    ((lines.filterMap Listed.group?).map (directoryName params.searchPrefix)).Nodup := by
  refine List.pairwise_map.mpr (List.pairwise_filterMap.mpr ?_)
  refine List.Pairwise.imp_of_mem (fun leftMember rightMember before => ?_) ascending
  intro left leftShown right rightShown same
  obtain rfl := group?_some leftShown
  obtain rfl := group?_some rightShown
  have equal : left = right := by
    rw [group_name slash (inside _ leftMember), group_name slash (inside _ rightMember), same]
  subst equal
  exact lt_irrefl _ before

theorem object_name (slash : params.delimiter = some ['/']) {object : S3Object}
    (line : .object object ∈ store.listing params) :
    object.key = params.searchPrefix ++ dropBase params.searchPrefix object.key ∧
      '/' ∉ dropBase params.searchPrefix object.key ∧
      store.get? params.bucket object.key ≠ none := by
  obtain ⟨⟨rest, plain, split⟩, stored⟩ := (object_iff slash).mp ⟨object, line, rfl⟩
  have name : dropBase params.searchPrefix object.key = rest := by
    rw [split, dropBase, List.drop_left]
  exact ⟨by rw [name, split], by rwa [name], stored⟩

/-- A line is shown as a directory under the name of its common prefix. -/
theorem lineDirectory_some {base : Str} {line : Listed} {entry : FileEntry}
    (shown : lineDirectory base line = some entry) :
    ∃ commonPrefix, line = .group commonPrefix ∧
      entry = .directory (directoryName base commonPrefix) ∧ entry.name ≠ [] := by
  obtain ⟨commonPrefix, group, named⟩ := Option.bind_eq_some_iff.mp shown
  refine ⟨commonPrefix, group?_some group, ?_⟩
  dsimp only at named
  split_ifs at named with empty
  obtain rfl := Option.some.inj named
  exact ⟨rfl, by simpa [FileEntry.directory] using empty⟩

/-- A line is shown as a file under what its key has after the folder. -/
theorem lineFile_some {base : Str} {line : Listed} {entry : FileEntry}
    (shown : lineFile base line = some entry) :
    ∃ object, line = .object object ∧ entry.isDirectory = false ∧
      entry.name = dropBase base object.key ∧ entry.name ≠ [] := by
  obtain ⟨object, group, named⟩ := Option.bind_eq_some_iff.mp shown
  refine ⟨object, object?_some group, ?_⟩
  dsimp only at named
  split_ifs at named with marker empty
  obtain rfl := Option.some.inj named
  exact ⟨rfl, rfl, by simpa using empty⟩

theorem lineFile_distinct (slash : params.delimiter = some ['/']) {left right : Listed}
    {leftEntry rightEntry : FileEntry} (leftMember : left ∈ store.listing params)
    (rightMember : right ∈ store.listing params) (before : left.name < right.name)
    (leftShown : lineFile params.searchPrefix left = some leftEntry)
    (rightShown : lineFile params.searchPrefix right = some rightEntry) :
    leftEntry.name ≠ rightEntry.name := by
  intro same
  obtain ⟨leftObject, rfl, -, leftName, -⟩ := lineFile_some leftShown
  obtain ⟨rightObject, rfl, -, rightName, -⟩ := lineFile_some rightShown
  have equal : leftObject.key = rightObject.key := by
    rw [(object_name slash leftMember).1, (object_name slash rightMember).1, ← leftName,
      ← rightName, same]
  rw [Listed.name, Listed.name, equal] at before
  exact lt_irrefl _ before

theorem lineEntries_nodup (slash : params.delimiter = some ['/']) {lines : List Listed}
    (inside : ∀ line ∈ lines, line ∈ store.listing params)
    (ascending : Paging.Ascending Listed.name lines) :
    (lineEntries params.searchPrefix lines).Nodup := by
  refine List.nodup_append.mpr ⟨?_, ?_, ?_⟩
  · refine List.pairwise_filterMap.mpr ?_
    refine List.Pairwise.imp_of_mem (fun leftMember rightMember before => ?_) ascending
    intro left leftShown right rightShown same
    obtain ⟨leftPrefix, rfl, rfl, -⟩ := lineDirectory_some leftShown
    obtain ⟨rightPrefix, rfl, rfl, -⟩ := lineDirectory_some rightShown
    have names := congrArg FileEntry.name same
    have equal : leftPrefix = rightPrefix := by
      rw [group_name slash (inside _ leftMember), group_name slash (inside _ rightMember)]
      exact congrArg (fun name => params.searchPrefix ++ (name ++ ['/'])) names
    subst equal
    exact lt_irrefl _ before
  · refine List.pairwise_filterMap.mpr ?_
    refine List.Pairwise.imp_of_mem (fun leftMember rightMember before => ?_) ascending
    intro left leftShown right rightShown same
    exact lineFile_distinct slash (inside _ leftMember) (inside _ rightMember) before leftShown
      rightShown (congrArg FileEntry.name same)
  · intro left leftMember right rightMember same
    obtain ⟨leftLine, -, leftShown⟩ := List.mem_filterMap.mp leftMember
    obtain ⟨rightLine, -, rightShown⟩ := List.mem_filterMap.mp rightMember
    obtain ⟨commonPrefix, -, rfl, -⟩ := lineDirectory_some leftShown
    obtain ⟨object, -, plain, -⟩ := lineFile_some rightShown
    rw [← same] at plain
    cases plain

theorem newDirectories_fresh {base : Str} {seen prefixes : List Str}
    (distinct : (prefixes.map (directoryName base)).Nodup)
    (fresh : ∀ commonPrefix ∈ prefixes, directoryName base commonPrefix ∉ seen) :
    newDirectories base seen prefixes =
      (prefixes.map (directoryName base)).filter fun name => !name.isEmpty := by
  induction prefixes generalizing seen with
  | nil => rfl
  | cons first rest ih =>
      obtain ⟨new, later⟩ := List.nodup_cons.mp distinct
      have unseen : seen.contains (directoryName base first) = false := by
        simpa using fresh first List.mem_cons_self
      rw [newDirectories, List.map_cons, List.filter_cons]
      simp only [unseen, Bool.or_false]
      cases empty : (directoryName base first).isEmpty with
      | true =>
          simp only [if_true, Bool.not_true, Bool.false_eq_true, if_false]
          exact ih later fun other member => fresh other (List.mem_cons_of_mem _ member)
      | false =>
          simp only [Bool.false_eq_true, if_false, Bool.not_false, if_true]
          congr 1
          refine ih later fun other member => ?_
          rw [List.mem_append, List.mem_singleton]
          rintro (old | same)
          · exact fresh other (List.mem_cons_of_mem _ member) old
          · exact new (same ▸ List.mem_map_of_mem member)

theorem directories_of_page (base : Str) (page : ListPage) :
    pageDirectories base page =
      ((page.commonPrefixes.map (directoryName base)).filter fun name => !name.isEmpty).map
        .directory := by
  unfold pageDirectories
  induction page.commonPrefixes with
  | nil => rfl
  | cons first rest ih =>
      rw [List.filterMap_cons, ih, List.map_cons, List.filter_cons]
      cases empty : (directoryName base first).isEmpty <;> simp [empty]

theorem pageEntries_perm {base : Str} {replies : List ListPage} {seen : List Str}
    (distinct : ((replies.flatMap ListPage.commonPrefixes).map (directoryName base)).Nodup)
    (fresh : ∀ commonPrefix ∈ replies.flatMap ListPage.commonPrefixes,
      directoryName base commonPrefix ∉ seen) :
    (pageEntries base seen replies).Perm
      (replies.flatMap (pageDirectories base) ++ replies.flatMap (pageFiles base)) := by
  induction replies generalizing seen with
  | nil => exact .nil
  | cons page rest ih =>
      rw [List.flatMap_cons, List.map_append] at distinct
      obtain ⟨here, later, apart⟩ := List.nodup_append.mp distinct
      have names := newDirectories_fresh here fun commonPrefix member =>
        fresh commonPrefix (List.mem_flatMap.mpr ⟨page, List.mem_cons_self, member⟩)
      have tail := @ih (seen ++ newDirectories base seen page.commonPrefixes) later ?_
      · rw [pageEntries, List.flatMap_cons, List.flatMap_cons, directories_of_page, ← names]
        refine (List.Perm.append_left _ tail).trans ?_
        rw [List.append_assoc, List.append_assoc]
        refine List.Perm.append_left _ ?_
        rw [← List.append_assoc, ← List.append_assoc]
        exact List.Perm.append_right _ List.perm_append_comm
      · intro commonPrefix member
        rw [List.mem_append, names]
        rintro (old | same)
        · refine fresh commonPrefix ?_ old
          rw [List.flatMap_cons]
          exact List.mem_append_right _ member
        · exact apart _ (List.mem_filter.mp same).1 _ (List.mem_map_of_mem member) rfl

end Names

section Chunks

variable {conventions : Conventions} {store : Store} {bucket base searched : Str}

/-- What a chunk asks for, up to the number of entries. -/
def levelParams (bucket base : Str) (token : Option Str) : ListParams :=
  { firstPage bucket base (some ['/']) none with
    continuationToken := token.filter fun token => !token.isEmpty }

theorem shows_page (size : Nat) (lines : List Listed) :
    Shows [listPage conventions size lines] (lines.take size) := by
  constructor <;> simp [listPage]

/-- What one chunk has taken from the lines that remained, and how it goes on. -/
structure Taken (conventions : Conventions) (store : Store) (bucket base searched : Str)
    (lines : List Listed) (directories files : List FileEntry)
    (chunk : List FileEntry × List FileEntry × Option (Option Str)) : Prop where
  split : ∃ taken rest, lines = taken ++ rest ∧
    chunk.1 = directories ++ taken.filterMap (lineDirectory base) ∧
    chunk.2.1 = files ++ taken.filterMap (lineFile base) ∧
    (rest = [] ∧ chunk.2.2 = none ∨
      taken ≠ [] ∧ ∃ next, chunk.2.2 = some (some next) ∧
        store.remaining conventions (levelParams bucket searched (some next)) = .ok rest)

section Page

variable {token : Option Str} {lines : List Listed} {size : Nat}

theorem page_answer (small : size ≤ 1000)
    (remaining : store.remaining conventions (levelParams bucket base token) = .ok lines) :
    store.answer conventions
        (.listObjectsV2 { levelParams bucket base token with maxKeys := some size }) =
      (.ok (listPage conventions size lines), store) := by
  have sized : pageSize { levelParams bucket base token with maxKeys := some size } = size :=
    min_eq_left small
  have answered := @answer_page conventions store
    { levelParams bucket base token with maxKeys := some size } lines remaining
  rwa [sized] at answered

theorem page_next (live : 0 < size) (small : size ≤ 1000) (more : size < lines.length)
    (remaining : store.remaining conventions (levelParams bucket base token) = .ok lines) :
    ∃ next, (listPage conventions size lines).nextContinuationToken = some next ∧
      store.remaining conventions (levelParams bucket base (some next)) =
        .ok (lines.drop size) := by
  let params := { levelParams bucket base token with maxKeys := some size }
  have sized : pageSize params = size := min_eq_left small
  have marked := @Paging.nextMark_isSome _ _ Listed.name size lines live
  obtain ⟨mark, shown⟩ : ∃ mark, Paging.nextMark Listed.name size lines = some mark := by
    rw [← Option.isSome_iff_exists, marked]
    exact decide_eq_true more
  have next : (listPage conventions size lines).nextContinuationToken =
      some (conventions.token mark) := congrArg (Option.map conventions.token) shown
  refine ⟨conventions.token mark, next, ?_⟩
  have later := @remaining_next conventions store params lines (conventions.token mark)
    (folder_ascending rfl) remaining (by rw [sized]; exact next)
  rw [sized] at later
  have kept : (some (conventions.token mark)).filter (fun token => !token.isEmpty) =
      some (conventions.token mark) := by
    simp [conventions.token_nonempty mark]
  have same : store.remaining conventions (levelParams bucket base (some (conventions.token mark))) =
      store.remaining conventions (params.continueWith (conventions.token mark)) := by
    unfold levelParams
    rw [kept]
    rfl
  rw [same, later]

end Page

section Loop

variable {maxClientLoad pages : Nat} {token : Option Str} {lines : List Listed}
  {directories files : List FileEntry}

theorem chunk_round
    (remaining : store.remaining conventions (levelParams bucket searched token) = .ok lines)
    (room : directories.length + files.length < maxClientLoad)
    (again : ∀ next taken rest directories files, pages ≠ 0 → lines = taken ++ rest →
      store.remaining conventions (levelParams bucket searched (some next)) = .ok rest →
      List.length directories + List.length files < maxClientLoad →
      ∃ chunk, Returns conventions
          (clientLoadPages bucket base searched maxClientLoad pages (some next) directories files)
          store chunk store ∧
        Taken conventions store bucket base searched rest directories files chunk) :
    ∃ chunk, Returns conventions
        (clientLoadPages bucket base searched maxClientLoad (pages + 1) token directories files)
        store chunk store ∧
      Taken conventions store bucket base searched lines directories files chunk := by
  obtain ⟨size, sized⟩ : ∃ size,
      size = min 1000 (maxClientLoad - (directories.length + files.length)) := ⟨_, rfl⟩
  have small : size ≤ 1000 := by omega
  have live : 0 < size := by omega
  have called := returns_call (page_answer small remaining)
  have dirs : pageDirectories base (listPage conventions size lines) =
      (lines.take size).filterMap (lineDirectory base) := by
    simpa using @pageDirectories_shows base _ _ (@shows_page conventions size lines)
  have shown : pageFiles base (listPage conventions size lines) =
      (lines.take size).filterMap (lineFile base) := by
    simpa using @pageFiles_shows base _ _ (@shows_page conventions size lines)
  have whole := (List.take_append_drop size lines).symm
  by_cases more : size < lines.length
  · obtain ⟨next, token', later⟩ := page_next live small more remaining
    have truncated : (listPage conventions size lines).isTruncated = true := decide_eq_true more
    have some : lines.take size ≠ [] := by
      intro empty
      have := congrArg List.length empty
      rw [List.length_take, List.length_nil] at this
      omega
    by_cases full : maxClientLoad ≤
        (directories ++ (lines.take size).filterMap (lineDirectory base)).length +
          (files ++ (lines.take size).filterMap (lineFile base)).length ∨ pages = 0
    · refine ⟨(_, _, .some (.some next)), ?_, ⟨lines.take size, lines.drop size, whole, rfl, rfl,
        .inr ⟨some, next, rfl, later⟩⟩⟩
      rw [clientLoadPages, ← sized]
      refine returns_bind called ?_
      simp only [dirs, shown, truncated, if_true, if_pos full, token']
      exact returns_pure _
    · obtain ⟨unfilled, left⟩ := not_or.mp full
      obtain ⟨chunk, ran, taken, rest, split, fst, snd, ending⟩ :=
        again next _ _ _ _ left whole later (not_le.mp unfilled)
      refine ⟨chunk, ?_, ⟨lines.take size ++ taken, rest, ?_, ?_, ?_, ?_⟩⟩
      · rw [clientLoadPages, ← sized]
        refine returns_bind called ?_
        simp only [dirs, shown, truncated, if_true, if_neg full, token']
        exact ran
      · rw [List.append_assoc, ← split, ← whole]
      · rw [fst, List.filterMap_append, List.append_assoc]
      · rw [snd, List.filterMap_append, List.append_assoc]
      · obtain last | ⟨-, going⟩ := ending
        · exact .inl last
        · exact .inr ⟨by simp [some], going⟩
  · have ended : (listPage conventions size lines).isTruncated = false := decide_eq_false more
    have all : lines.take size = lines := List.take_of_length_le (not_lt.mp more)
    refine ⟨(_, _, none), ?_, ⟨lines, [], (List.append_nil _).symm, rfl, rfl, .inl ⟨rfl, rfl⟩⟩⟩
    rw [clientLoadPages, ← sized]
    refine returns_bind called ?_
    simp only [dirs, shown, ended, all, Bool.false_eq_true, if_false]
    exact returns_pure _

theorem clientLoadPages_returns (pages : Nat)
    (remaining : store.remaining conventions (levelParams bucket searched token) = .ok lines)
    (room : directories.length + files.length < maxClientLoad) :
    ∃ chunk, Returns conventions
        (clientLoadPages bucket base searched maxClientLoad (pages + 1) token directories files)
        store chunk store ∧
      Taken conventions store bucket base searched lines directories files chunk := by
  induction pages generalizing token lines directories files with
  | zero =>
      refine chunk_round remaining room ?_
      intro next taken rest directories files left
      exact absurd rfl left
  | succ pages ih =>
      refine chunk_round remaining room ?_
      intro next taken rest directories files _ _ later room
      exact ih later room

end Loop

end Chunks

section Runs

variable {unicode : Unicode} {config : Dict} {conventions : Conventions} {store : Store}
  {role : Option Str} {bucket path : Str} {user : UserDict}

/-- All entries of a chunk. -/
def ClientLoad.entries (chunk : ClientLoad) : List FileEntry :=
  chunk.directories ++ chunk.files

/-- The chunks of a folder that are loaded one after the other, each with the token
of the one before it. -/
inductive ChunkRun (conventions : Conventions) (store : Store)
    (load : Int → Option Str → S3Program ClientLoad) (sizes : Nat → Int) :
    Nat → Option Str → List ClientLoad → Prop where
  | last {count : Nat} {token : Option Str} {chunk : ClientLoad} :
      Returns conventions (load (sizes count) token) store chunk store →
      chunk.truncated = false →
      ChunkRun conventions store load sizes count token [chunk]
  | more {count : Nat} {token : Option Str} {chunk : ClientLoad} {next : Str}
      {rest : List ClientLoad} :
      Returns conventions (load (sizes count) token) store chunk store →
      chunk.truncated = true → chunk.nextToken = some next →
      ChunkRun conventions store load sizes (count + 1) (some next) rest →
      ChunkRun conventions store load sizes count token (chunk :: rest)

section Determined

variable {load other : Int → Option Str → S3Program ClientLoad} {sizes : Nat → Int} {count : Nat}
  {token : Option Str} {chunks others : List ClientLoad}

theorem ChunkRun.transfer
    (same : ∀ size token chunk, Returns conventions (load size token) store chunk store →
      Returns conventions (other size token) store chunk store)
    (running : ChunkRun conventions store load sizes count token chunks) :
    ChunkRun conventions store other sizes count token chunks := by
  induction running with
  | last loaded ended => exact .last (same _ _ _ loaded) ended
  | more loaded truncated going _ ih => exact .more (same _ _ _ loaded) truncated going ih

theorem returns_unique {α : Type} {program : S3Program α} {first second : α} {after left : Store}
    (one : Returns conventions program store first after)
    (another : Returns conventions program store second left) : first = second :=
  Except.ok.inj (Prod.mk.inj (one.symm.trans another)).1

theorem ChunkRun.unique (one : ChunkRun conventions store load sizes count token chunks)
    (another : ChunkRun conventions store load sizes count token others) : chunks = others := by
  induction one generalizing others with
  | last loaded ended =>
      cases another with
      | last again _ => rw [returns_unique loaded again]
      | more again truncated _ _ =>
          rw [returns_unique loaded again, truncated] at ended
          cases ended
  | more loaded truncated going _ ih =>
      cases another with
      | last again ended =>
          rw [returns_unique loaded again, ended] at truncated
          cases truncated
      | more again _ next rest =>
          obtain rfl := returns_unique loaded again
          obtain rfl := Option.some.inj (going.symm.trans next)
          rw [ih rest]

end Determined

/-- Loading a folder without a name prefix. -/
def loadFolder (unicode : Unicode) (config : Dict) (role : Option Str) (bucket path : Str)
    (user : UserDict) (size : Int) (token : Option Str) : S3Program ClientLoad :=
  listObjectsClientLoadForRole unicode config role bucket path user size token []

theorem sortByName_perm (entries : List FileEntry) :
    (sortByName unicode entries).Perm entries :=
  List.mergeSort_perm ..

/-- Chunks of a folder that show these lines. -/
structure ChunksShow (path base : Str) (chunks : List ClientLoad) (lines : List Listed) : Prop where
  directories :
    (chunks.flatMap ClientLoad.directories).Perm (lines.filterMap (lineDirectory base))
  files : (chunks.flatMap ClientLoad.files).Perm (lines.filterMap (lineFile base))
  path : ∀ chunk ∈ chunks, chunk.path = path

theorem ChunksShow.entries {path base : Str} {chunks : List ClientLoad} {lines : List Listed}
    (shown : ChunksShow path base chunks lines) :
    (chunks.flatMap ClientLoad.entries).Perm (lineEntries base lines) := by
  have split : (chunks.flatMap ClientLoad.entries).Perm
      (chunks.flatMap ClientLoad.directories ++ chunks.flatMap ClientLoad.files) :=
    (List.flatMap_append_perm chunks ClientLoad.directories ClientLoad.files).symm
  exact split.trans (shown.directories.append shown.files)

theorem ChunksShow.append {path base : Str} {front back : List ClientLoad}
    {taken rest : List Listed} (first : ChunksShow path base front taken)
    (second : ChunksShow path base back rest) :
    ChunksShow path base (front ++ back) (taken ++ rest) where
  directories := by
    rw [List.flatMap_append, List.filterMap_append]
    exact first.directories.append second.directories
  files := by
    rw [List.flatMap_append, List.filterMap_append]
    exact first.files.append second.files
  path chunk member := by
    obtain inFront | inBack := List.mem_append.mp member
    · exact first.path chunk inFront
    · exact second.path chunk inBack

theorem chunk_returns {listing : ListEntry} {token : Option Str} {lines : List Listed}
    (namePrefix : Str) (size : Int)
    (prepared : prepareListPath unicode config role bucket user path = .ok listing)
    (real : listing.virtualDirectories = none)
    (remaining : store.remaining conventions
      (levelParams bucket (folderPrefix listing.effectivePath ++ namePrefix) token) = .ok lines) :
    ∃ chunk, Returns conventions
        (listObjectsClientLoadForRole unicode config role bucket path user size token namePrefix)
        store chunk store ∧
      ∃ taken rest, lines = taken ++ rest ∧
        ChunksShow listing.effectivePath (folderPrefix listing.effectivePath) [chunk] taken ∧
        (rest = [] ∧ chunk.truncated = false ∨
          taken ≠ [] ∧ chunk.truncated = true ∧ ∃ next, chunk.nextToken = some next ∧
            store.remaining conventions
              (levelParams bucket (folderPrefix listing.effectivePath ++ namePrefix) (some next)) =
                .ok rest) := by
  obtain ⟨chunk, ran, taken, rest, split, directories, files, ending⟩ :=
    @clientLoadPages_returns conventions store bucket (folderPrefix listing.effectivePath)
      (folderPrefix listing.effectivePath ++ namePrefix) (max 1 (min size 200000)).toNat token lines
      [] [] ((max 1 (min size 200000)).toNat / 1000 + 7) remaining (by simp)
  refine ⟨⟨sortByName unicode chunk.1, sortByName unicode chunk.2.1, chunk.2.2.isSome,
    chunk.2.2.getD none, listing.effectivePath⟩, ?_, taken, rest, split, ⟨?_, ?_, ?_⟩, ?_⟩
  · rw [listObjectsClientLoadForRole, gatedListing, prepared, ofResult_ok_bind]
    simp only [real]
    exact returns_retry (returns_bind ran (returns_pure _))
  · rw [List.flatMap_singleton]
    exact (sortByName_perm _).trans (by rw [directories, List.nil_append])
  · rw [List.flatMap_singleton]
    exact (sortByName_perm _).trans (by rw [files, List.nil_append])
  · intro only member
    rw [List.mem_singleton.mp member]
  · obtain ⟨last, ended⟩ | ⟨some, next, going, later⟩ := ending
    · exact .inl ⟨last, by simp [ended]⟩
    · exact .inr ⟨some, by simp [going], next, by simp [going], later⟩

/-- Chunk after chunk, the lines that remain are shown; the induction is on their
number, since a chunk that is not the last one takes some. -/
theorem chunks_of_remaining {listing : ListEntry} (namePrefix : Str) (sizes : Nat → Int)
    (prepared : prepareListPath unicode config role bucket user path = .ok listing)
    (real : listing.virtualDirectories = none) {token : Option Str} {lines : List Listed}
    (count : Nat)
    (remaining : store.remaining conventions
      (levelParams bucket (folderPrefix listing.effectivePath ++ namePrefix) token) = .ok lines) :
    ∃ chunks,
      ChunkRun conventions store
        (fun size token => listObjectsClientLoadForRole unicode config role bucket path user size
          token namePrefix) sizes count token chunks ∧
      ChunksShow listing.effectivePath (folderPrefix listing.effectivePath) chunks lines := by
  induction size : lines.length using Nat.strong_induction_on generalizing lines token count with
  | _ length ih =>
      obtain ⟨chunk, ran, taken, rest, split, shown, ending⟩ :=
        chunk_returns namePrefix (sizes count) prepared real remaining
      obtain ⟨rfl, ended⟩ | ⟨some, truncated, next, going, later⟩ := ending
      · refine ⟨[chunk], .last ran ended, ?_⟩
        rw [List.append_nil] at split
        rwa [split]
      · have shorter : rest.length < length := by
          have progress := List.length_pos_iff.mpr some
          rw [← size, split, List.length_append]
          omega
        obtain ⟨chunks, running, entries⟩ := ih rest.length shorter (count + 1) later rfl
        refine ⟨chunk :: chunks, .more ran truncated going running, ?_⟩
        rw [split]
        exact shown.append entries

theorem folder_chunks {listing : ListEntry} {lines : List Listed} (sizes : Nat → Int)
    (prepared : prepareListPath unicode config role bucket user path = .ok listing)
    (real : listing.virtualDirectories = none)
    (remaining : store.remaining conventions
      (levelParams bucket (folderPrefix listing.effectivePath) none) = .ok lines) :
    ∃ chunks,
      ChunkRun conventions store (loadFolder unicode config role bucket path user) sizes 0 none
        chunks ∧
      ChunksShow listing.effectivePath (folderPrefix listing.effectivePath) chunks lines :=
  chunks_of_remaining [] sizes prepared real 0 (by rwa [List.append_nil])

theorem listObjectsForRole_atomic {listing : ListEntry} (pages : Nat)
    (prepared : prepareListPath unicode config role bucket user path = .ok listing)
    (real : listing.virtualDirectories = none) :
    Atomic conventions (listObjectsForRole unicode config pages role bucket path user) store
      fun files _ => files.Perm (lineEntries (folderPrefix listing.effectivePath)
        (store.listing (levelParams bucket (folderPrefix listing.effectivePath) none))) := by
  rw [listObjectsForRole, gatedListing, prepared, ofResult_ok_bind]
  simp only [real]
  refine atomic_retry ?_
  let params := levelParams bucket (folderPrefix listing.effectivePath) none
  refine atomic_bind (@atomic_paginate conventions store params _ pages (folder_ascending rfl)
    (pageSize_pos (by simp [params, levelParams, firstPage])) rfl) fun replies shows => ?_
  refine atomic_pure ((List.mergeSort_perm ..).trans ?_)
  have distinct := @directoryNames_nodup store params rfl _ (fun _ => id) (folder_ascending rfl)
  rw [← shows.commonPrefixes] at distinct
  refine (pageEntries_perm distinct fun _ _ => List.not_mem_nil).trans ?_
  rw [pageDirectories_shows shows, pageFiles_shows shows]
  exact .refl _

theorem virtual_nodup {listing : ListEntry} {directories : List FileEntry}
    (prepared : prepareListPath unicode config role bucket user path = .ok listing)
    (virtual : listing.virtualDirectories = some directories) : directories.Nodup := by
  obtain ⟨-, -, entry, prefixes, -, -, -, rfl⟩ := prepareListPath_virtual prepared virtual
  have names : (sortedNames unicode (prefixNorms prefixes)).Nodup :=
    (List.mergeSort_perm ..).nodup_iff.mpr (List.nodup_dedup _)
  exact names.map fun _ _ same => congrArg FileEntry.name same

/-- The folders of such a root come in one chunk, whatever is searched for. -/
theorem virtual_chunk {listing : ListEntry} {directories : List FileEntry} (namePrefix : Str)
    (sizes : Nat → Int)
    (prepared : prepareListPath unicode config role bucket user path = .ok listing)
    (virtual : listing.virtualDirectories = some directories) :
    ChunkRun conventions store
      (fun size token => listObjectsClientLoadForRole unicode config role bucket path user size
        token namePrefix) sizes 0 none
      [⟨directories, [], false, none, listing.effectivePath⟩] := by
  refine .last ?_ rfl
  rw [listObjectsClientLoadForRole, gatedListing, prepared, ofResult_ok_bind]
  simp only [virtual]
  exact returns_pure _

/-- Loaded chunk by chunk, whatever the sizes of the chunks are, a folder has the
entries of its plain listing, each once. -/
theorem chunks_equal_plain {pages : Nat} {files : List FileEntry} {after : Store}
    (sizes : Nat → Int)
    (plain : Returns conventions (listObjectsForRole unicode config pages role bucket path user)
      store files after) :
    ∃ chunks,
      ChunkRun conventions store (loadFolder unicode config role bucket path user) sizes 0 none
        chunks ∧
      (chunks.flatMap ClientLoad.entries).Perm files ∧ files.Nodup := by
  cases prepared : prepareListPath unicode config role bucket user path with
  | error exc =>
      rw [listObjectsForRole, gatedListing, prepared] at plain
      cases plain
  | ok listing =>
      cases virtual : listing.virtualDirectories with
      | some directories =>
          rw [listObjectsForRole, gatedListing, prepared, ofResult_ok_bind] at plain
          simp only [virtual] at plain
          obtain rfl := Except.ok.inj (Prod.mk.inj plain).1
          have same : (sortEntries unicode directories).Perm directories := List.mergeSort_perm ..
          refine ⟨_, virtual_chunk [] sizes prepared virtual, ?_, ?_⟩
          · simpa [ClientLoad.entries] using same.symm
          · exact same.nodup_iff.mpr (virtual_nodup prepared virtual)
      | none =>
          let params := levelParams bucket (folderPrefix listing.effectivePath) none
          obtain ⟨chunks, running, entries⟩ :=
            folder_chunks sizes prepared virtual
              (rfl : store.remaining conventions params = .ok (store.listing params))
          have shown := @listObjectsForRole_atomic unicode config conventions store role bucket path
            user listing pages prepared virtual fun _ => none
          have ran : (listObjectsForRole unicode config pages role bucket path user).run conventions
              ⟨store, fun _ => none⟩ = (.ok files, calm after) := plain
          rw [ran] at shown
          have distinct := @lineEntries_nodup store params rfl _ (fun _ => id) (folder_ascending rfl)
          exact ⟨chunks, running, entries.entries.trans shown.symm, shown.nodup_iff.mpr distinct⟩

/-- A folder marker, a file and two subfolders, one of which has an empty name. -/
def mixedStore : Store where
  bucketNames := [lit "data"]
  objects _ := ((((OrderedMap.empty.insert (lit "f/") ⟨[], none, []⟩).insert (lit "f/a/x")
    ⟨[1], none, []⟩).insert (lit "f/b") ⟨[1, 2], none, []⟩).insert (lit "f//y") ⟨[], none, []⟩)
  now := []

def anyUser : UserDict where
  isAdmin := true
  allowedRoles := []
  defaultRole := none

theorem chunks_equal_plain_mixed :
    ∃ files chunks,
      ChunkRun Conventions.plain mixedStore
        (loadFolder Unicode.ascii [] none (lit "data") (lit "f") anyUser) (fun _ => 1) 0 none chunks ∧
      (chunks.flatMap ClientLoad.entries).Perm files ∧ files.Nodup := by
  have plain : ∃ files after, Returns Conventions.plain
      (listObjectsForRole Unicode.ascii [] 5 none (lit "data") (lit "f") anyUser) mixedStore files
      after := ⟨_, _, rfl⟩
  obtain ⟨files, after, plain⟩ := plain
  exact ⟨files, chunks_equal_plain (fun _ => 1) plain⟩

end Runs

end S3Manager.Storage
