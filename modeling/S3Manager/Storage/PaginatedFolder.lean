import S3Manager.Storage.ClientChunks

/-! A folder page by page: each page goes on with the files, and the directories come
from one bounded request of the first page. -/

set_option autoImplicit false

namespace S3Manager.Storage

open Python Access Library

section Folder

variable (store : Store) (bucket base : Str)

/-- A file right in the folder, by its name. -/
structure DirectFile (name : Str) : Prop where
  named : name ≠ []
  plain : '/' ∉ name
  stored : store.get? bucket (base ++ name) ≠ none

/-- A folder right in the folder, by its name: there are keys below it. -/
structure SubDirectory (name : Str) : Prop where
  named : name ≠ []
  plain : '/' ∉ name
  below : ∃ key, base ++ name ++ ['/'] <+: key ∧ store.get? bucket key ≠ none

def FewSubDirectories (limit : Nat) : Prop :=
  ∃ names : List Str, names.length ≤ limit ∧
    ∀ name, SubDirectory store bucket base name → name ∈ names

/-- The lines of the folder. -/
def levelLines : List Listed :=
  store.listing (levelParams bucket base none)

/-- The lines of the folder, files and folders together, that come before a folder. -/
def linesBefore (name : Str) : List Listed :=
  Paging.before Listed.name (levelLines store bucket base) (base ++ name ++ ['/'])

end Folder

section Lines

variable {store : Store} {bucket base : Str} {name : Str}

theorem file_no_slash (named : name ≠ []) (plain : '/' ∉ name) :
    endsWith (base ++ name) ['/'] = false := by
  rw [← Bool.not_eq_true, endsWith_slash_iff]
  rintro ⟨init, split⟩
  have last := congrArg List.getLast? split
  rw [List.getLast?_append_of_ne_nil _ named, List.getLast?_concat] at last
  exact plain (List.mem_of_getLast? last)

theorem directFile_iff :
    (∃ entry ∈ (levelLines store bucket base).filterMap (lineFile base), entry.name = name) ↔
      DirectFile store bucket base name := by
  constructor
  · rintro ⟨entry, member, rfl⟩
    obtain ⟨line, listed, shown⟩ := List.mem_filterMap.mp member
    obtain ⟨object, rfl, -, called, named⟩ := lineFile_some shown
    obtain ⟨key, plain, stored⟩ := @object_name store (levelParams bucket base none) rfl _ listed
    rw [called] at named ⊢
    exact ⟨named, plain, key ▸ stored⟩
  · intro file
    obtain ⟨object, listed, key⟩ :=
      (@object_iff store (levelParams bucket base none) rfl (base ++ name)).mpr
        ⟨⟨name, file.plain, rfl⟩, file.stored⟩
    have drop : dropBase base object.key = name := by rw [key, dropBase, List.drop_left]
    have visible : isMarker object = false := by
      rw [isMarker, key, file_no_slash file.named file.plain, Bool.false_and]
    have shown : lineFile base (.object object) =
        some ⟨name, false, object.size, some object.lastModified⟩ := by
      have live : name.isEmpty = false := by simpa using file.named
      simp only [lineFile, Listed.object?, Option.bind_some, visible, drop, live,
        Bool.false_eq_true, if_false]
    exact ⟨_, List.mem_filterMap.mpr ⟨_, listed, shown⟩, rfl⟩

theorem fileNames_nodup :
    (((levelLines store bucket base).filterMap (lineFile base)).map FileEntry.name).Nodup := by
  refine List.pairwise_map.mpr (List.pairwise_filterMap.mpr ?_)
  have ascending := @folder_ascending store (levelParams bucket base none) rfl
  refine List.Pairwise.imp_of_mem (fun leftMember rightMember before => ?_) ascending
  intro left leftShown right rightShown
  exact lineFile_distinct rfl leftMember rightMember before leftShown rightShown

theorem subDirectory_iff (named : name ≠ []) (plain : '/' ∉ name) :
    .group (base ++ name ++ ['/']) ∈ levelLines store bucket base ↔
      SubDirectory store bucket base name := by
  rw [levelLines, group_iff rfl]
  constructor
  · rintro ⟨_, below⟩
    exact ⟨named, plain, below⟩
  · intro inside
    exact ⟨⟨name, plain, rfl⟩, inside.below⟩

theorem lineDirectory_mem {lines : List Listed}
    (part : ∀ line ∈ lines, line ∈ levelLines store bucket base)
    (named : name ≠ []) (plain : '/' ∉ name) :
    .directory name ∈ lines.filterMap (lineDirectory base) ↔
      .group (base ++ name ++ ['/']) ∈ lines := by
  constructor
  · intro shown
    obtain ⟨line, listed, entry⟩ := List.mem_filterMap.mp shown
    obtain ⟨commonPrefix, group, called⟩ := Option.bind_eq_some_iff.mp entry
    obtain rfl := group?_some group
    dsimp only at called
    split_ifs at called
    obtain rfl : directoryName base commonPrefix = name :=
      congrArg FileEntry.name (Option.some.inj called)
    have whole := @group_name store (levelParams bucket base none) rfl _ (part _ listed)
    rw [List.append_assoc]
    exact whole ▸ listed
  · intro listed
    refine List.mem_filterMap.mpr ⟨_, listed, ?_⟩
    have called : directoryName base (base ++ name ++ ['/']) = name := by
      rw [List.append_assoc]
      exact directoryName_group base plain
    have live : name.isEmpty = false := by simpa using named
    simp only [lineDirectory, Listed.group?, Option.bind_some, called, live, Bool.false_eq_true,
      if_false]

end Lines

section Pages

variable {unicode : Unicode} {config : Dict} {conventions : Conventions} {store : Store}
  {role : Option Str} {bucket path : Str} {user : UserDict} {listing : ListEntry}

/-- A page has the fields of a chunk. -/
def PaginatedListing.chunk (page : PaginatedListing) : ClientLoad where
  directories := page.directories
  files := page.files
  truncated := page.hasMore
  nextToken := page.nextToken
  path := page.path

def loadPage (unicode : Unicode) (config : Dict) (role : Option Str) (bucket path : Str)
    (user : UserDict) (maxKeys : Int) (token : Option Str) : S3Program ClientLoad := do
  let page ← listObjectsPaginatedForRole unicode config role bucket path user maxKeys token
  pure page.chunk

theorem firstPageDirectories_returns {base : Str} (token : Option Str) :
    ∃ directories, Returns conventions (firstPageDirectories unicode bucket base token) store
        directories store ∧
      (token = none → directories.Perm
        (((levelLines store bucket base).take 1000).filterMap (lineDirectory base))) := by
  cases token with
  | some token => exact ⟨[], returns_pure _, by simp⟩
  | none =>
      have called := returns_call (@page_answer conventions store bucket base none _ 1000 le_rfl
        (rfl : store.remaining conventions (levelParams bucket base none) =
          .ok (levelLines store bucket base)))
      refine ⟨_, returns_bind called (returns_pure _), fun _ => ?_⟩
      refine (sortByName_perm _).trans ?_
      have dirs := @pageDirectories_shows base _ _
        (@shows_page conventions 1000 (levelLines store bucket base))
      rw [List.flatMap_singleton] at dirs
      exact .of_eq dirs

theorem loadPage_returns {token : Option Str} {lines : List Listed} (maxKeys : Int)
    (prepared : prepareListPath unicode config role bucket user path = .ok listing)
    (real : listing.virtualDirectories = none)
    (remaining : store.remaining conventions
      (levelParams bucket (folderPrefix listing.effectivePath) token) = .ok lines) :
    ∃ page, Returns conventions (loadPage unicode config role bucket path user maxKeys token) store
        page store ∧
      (token = none → page.directories.Perm (((levelLines store bucket
        (folderPrefix listing.effectivePath)).take 1000).filterMap
          (lineDirectory (folderPrefix listing.effectivePath)))) ∧
      ∃ taken rest, lines = taken ++ rest ∧
        page.files.Perm (taken.filterMap (lineFile (folderPrefix listing.effectivePath))) ∧
        (rest = [] ∧ page.truncated = false ∨
          taken ≠ [] ∧ page.truncated = true ∧ ∃ next, page.nextToken = some next ∧
            store.remaining conventions
              (levelParams bucket (folderPrefix listing.effectivePath) (some next)) = .ok rest) := by
  obtain ⟨size, sized⟩ : ∃ size, size = (max 1 (min maxKeys 1000)).toNat := ⟨_, rfl⟩
  have small : size ≤ 1000 := by omega
  have live : 0 < size := by omega
  obtain ⟨directories, discovered, first⟩ := @firstPageDirectories_returns unicode conventions store
    bucket (folderPrefix listing.effectivePath) token
  have called := returns_call (page_answer small remaining)
  have shown := @pageFiles_shows (folderPrefix listing.effectivePath) _ _
    (@shows_page conventions size lines)
  rw [List.flatMap_singleton] at shown
  have ran : Returns conventions
      (loadPage unicode config role bucket path user maxKeys token) store
      ⟨directories, sortByName unicode
        (pageFiles (folderPrefix listing.effectivePath) (listPage conventions size lines)),
        (listPage conventions size lines).isTruncated,
        if (listPage conventions size lines).isTruncated then
          (listPage conventions size lines).nextContinuationToken else none,
        listing.effectivePath⟩ store := by
    unfold loadPage listObjectsPaginatedForRole gatedListing
    rw [prepared, ofResult_ok_bind]
    simp only [real]
    rw [← sized]
    exact returns_bind (returns_retry (returns_bind discovered (returns_bind called
      (returns_pure _)))) (returns_pure _)
  refine ⟨_, ran, first, lines.take size, lines.drop size, (List.take_append_drop ..).symm, ?_, ?_⟩
  · exact (sortByName_perm _).trans (.of_eq shown)
  · by_cases more : size < lines.length
    · obtain ⟨next, token', later⟩ := page_next live small more remaining
      have truncated : (listPage conventions size lines).isTruncated = true := decide_eq_true more
      refine .inr ⟨?_, truncated, next, ?_, later⟩
      · rw [ne_eq, List.take_eq_nil_iff, not_or]
        exact ⟨live.ne', List.ne_nil_of_length_pos (by omega)⟩
      · dsimp only
        rw [truncated, if_pos rfl, token']
    · exact .inl ⟨List.drop_eq_nil_of_le (Nat.not_lt.mp more), decide_eq_false more⟩

/-- Page after page, the files that remain are shown; the induction is on the number of
lines, since a page that is not the last one takes some. -/
theorem pages_of_remaining (sizes : Nat → Int)
    (prepared : prepareListPath unicode config role bucket user path = .ok listing)
    (real : listing.virtualDirectories = none) {token : Option Str} {lines : List Listed}
    (count : Nat)
    (remaining : store.remaining conventions
      (levelParams bucket (folderPrefix listing.effectivePath) token) = .ok lines) :
    ∃ page rest,
      ChunkRun conventions store (loadPage unicode config role bucket path user) sizes count
        token (page :: rest) ∧
      ((page :: rest).flatMap ClientLoad.files).Perm
        (lines.filterMap (lineFile (folderPrefix listing.effectivePath))) ∧
      (token = none → page.directories.Perm (((levelLines store bucket
        (folderPrefix listing.effectivePath)).take 1000).filterMap
          (lineDirectory (folderPrefix listing.effectivePath)))) := by
  induction size : lines.length using Nat.strong_induction_on generalizing lines token count with
  | _ length ih =>
      obtain ⟨page, ran, first, taken, rest, split, files, ending⟩ :=
        loadPage_returns (sizes count) prepared real remaining
      obtain ⟨rfl, ended⟩ | ⟨some, truncated, next, going, later⟩ := ending
      · refine ⟨page, [], .last ran ended, ?_, first⟩
        rw [List.append_nil] at split
        rw [List.flatMap_singleton, split]
        exact files
      · have shorter : rest.length < length := by
          have progress := List.length_pos_iff.mpr some
          rw [← size, split, List.length_append]
          omega
        obtain ⟨following, others, running, shown, _⟩ :=
          ih rest.length shorter (count + 1) later rfl
        refine ⟨page, following :: others, .more ran truncated going running, ?_, first⟩
        rw [List.flatMap_cons, split, List.filterMap_append]
        exact files.append shown

end Pages

section Shown

/-- The pages have every file of the folder once, and the first one every folder in it,
when there are no more of these than it asks for. -/
structure ShowsFolder (store : Store) (bucket base : Str) (pages : List ClientLoad) : Prop where
  once : ((pages.flatMap ClientLoad.files).map FileEntry.name).Nodup
  files : ∀ name, name ∈ (pages.flatMap ClientLoad.files).map FileEntry.name ↔
    DirectFile store bucket base name
  directories : FewSubDirectories store bucket base 1000 → ∀ name,
    SubDirectory store bucket base name →
      ∃ first rest, pages = first :: rest ∧ .directory name ∈ first.directories

/-- A root that stands for several prefixes has its own folders and no files. -/
def ShowsListing (store : Store) (bucket : Str) (listing : ListEntry) (pages : List ClientLoad) :
    Prop :=
  match listing.virtualDirectories with
  | some directories => ∃ only : ClientLoad, pages = [only] ∧ only.directories = directories ∧
      only.files = []
  | none => ShowsFolder store bucket (folderPrefix listing.effectivePath) pages

/-- Of at most 1000 folders, each has fewer than 1000 lines before it. -/
def WithinReach (store : Store) (bucket base : Str) : Prop :=
  FewSubDirectories store bucket base 1000 → ∀ name, SubDirectory store bucket base name →
    (linesBefore store bucket base name).length < 1000

variable {unicode : Unicode} {config : Dict} {conventions : Conventions} {store : Store}
  {role : Option Str} {bucket path base name : Str} {user : UserDict} {listing : ListEntry}

theorem discovered_iff {directories : List FileEntry}
    (first : directories.Perm
      (((levelLines store bucket base).take 1000).filterMap (lineDirectory base)))
    (inside : SubDirectory store bucket base name) :
    .directory name ∈ directories ↔ (linesBefore store bucket base name).length < 1000 := by
  rw [first.mem_iff, lineDirectory_mem (fun _ => List.mem_of_mem_take) inside.named inside.plain]
  exact Paging.mem_take_iff (folder_ascending rfl)
    ((subDirectory_iff inside.named inside.plain).mpr inside)

theorem files_once {files : List FileEntry}
    (shown : files.Perm ((levelLines store bucket base).filterMap (lineFile base))) :
    (files.map FileEntry.name).Nodup ∧
      ∀ name, name ∈ files.map FileEntry.name ↔ DirectFile store bucket base name := by
  refine ⟨(shown.map FileEntry.name).nodup_iff.mpr fileNames_nodup, fun name => ?_⟩
  rw [(shown.map FileEntry.name).mem_iff, List.mem_map, directFile_iff]

theorem virtual_page {directories : List FileEntry} (sizes : Nat → Int)
    (prepared : prepareListPath unicode config role bucket user path = .ok listing)
    (virtual : listing.virtualDirectories = some directories) :
    ChunkRun conventions store (loadPage unicode config role bucket path user) sizes 0 none
      [⟨directories, [], false, none, listing.effectivePath⟩] := by
  refine .last ?_ rfl
  unfold loadPage listObjectsPaginatedForRole gatedListing
  rw [prepared, ofResult_ok_bind]
  simp only [virtual]
  exact returns_bind (returns_pure _) (returns_pure _)

theorem folder_pages_iff (sizes : Nat → Int)
    (prepared : prepareListPath unicode config role bucket user path = .ok listing)
    (real : listing.virtualDirectories = none) :
    (∃ pages, ChunkRun conventions store (loadPage unicode config role bucket path user) sizes 0
        none pages ∧ ShowsFolder store bucket (folderPrefix listing.effectivePath) pages) ↔
      WithinReach store bucket (folderPrefix listing.effectivePath) := by
  obtain ⟨page, rest, running, shown, first⟩ := pages_of_remaining sizes prepared real 0
    (rfl : store.remaining conventions
      (levelParams bucket (folderPrefix listing.effectivePath) none) =
        .ok (levelLines store bucket (folderPrefix listing.effectivePath)))
  have discovered {name : Str} := @discovered_iff store bucket
    (folderPrefix listing.effectivePath) name _ (first rfl)
  constructor
  · rintro ⟨pages, again, shows⟩ few name inside
    obtain rfl := again.unique running
    obtain ⟨_, _, same, listed⟩ := shows.directories few name inside
    obtain ⟨rfl, rfl⟩ := List.cons.inj same
    exact (discovered inside).mp listed
  · intro reach
    obtain ⟨once, files⟩ := files_once shown
    exact ⟨page :: rest, running, once, files, fun few name inside =>
      ⟨page, rest, rfl, (discovered inside).mpr (reach few name inside)⟩⟩

/-- Whatever the page sizes are, the pages show the folder iff its folders are within the
reach of the one request for them. -/
theorem pages_show_iff (sizes : Nat → Int)
    (prepared : prepareListPath unicode config role bucket user path = .ok listing) :
    (∃ pages, ChunkRun conventions store (loadPage unicode config role bucket path user) sizes 0
        none pages ∧ ShowsListing store bucket listing pages) ↔
      (listing.virtualDirectories = none →
        WithinReach store bucket (folderPrefix listing.effectivePath)) := by
  cases virtual : listing.virtualDirectories with
  | some directories =>
      refine iff_of_true ⟨_, virtual_page sizes prepared virtual, ?_⟩ fun real => by cases real
      simp [ShowsListing, virtual]
  | none =>
      unfold ShowsListing
      rw [virtual]
      exact (folder_pages_iff sizes prepared virtual).trans
        ⟨fun reach _ => reach, fun reach => reach rfl⟩

theorem pages_show_mixed :
    ∃ pages, ChunkRun Conventions.plain mixedStore
        (loadPage Unicode.ascii [] none (lit "data") (lit "f") anyUser) (fun _ => 1) 0 none pages ∧
      ShowsListing mixedStore (lit "data") ⟨lit "f", none, none⟩ pages := by
  refine (pages_show_iff (fun _ => 1) rfl).mpr fun _ _ name _ => ?_
  have lines : (levelLines mixedStore (lit "data") (lit "f/")).length = 4 := by decide
  have part : (linesBefore mixedStore (lit "data") (lit "f/") name).length ≤
      (levelLines mixedStore (lit "data") (lit "f/")).length := List.length_filter_le ..
  have few : (linesBefore mixedStore (lit "data") (lit "f/") name).length < 1000 := by omega
  exact few

def blank : Stored where
  body := []
  contentType := none
  lastModified := []

def crowdName (count : Nat) : Str := List.replicate (count + 1) 'a'

/-- A thousand files that sort before the only folder. -/
def crowd : List (Str × Stored) :=
  (List.range 1000).map (fun count => (crowdName count, blank)) ++ [(['z', '/', 'x'], blank)]

theorem crowd_ascending : crowd.Pairwise fun left right => left.1 < right.1 := by
  have longer (few more : Nat) (fewer : few < more) : crowdName few < crowdName more := by
    obtain ⟨rest, rfl⟩ := Nat.exists_eq_add_of_lt fewer
    have split : crowdName (few + rest + 1) = crowdName few ++ List.replicate (rest + 1) 'a' := by
      rw [crowdName, crowdName, List.replicate_append_replicate]
      congr 1
      omega
    have grows : crowdName few ++ [] < crowdName few ++ List.replicate (rest + 1) 'a' :=
      append_lt_iff.mpr (List.nil_lt_cons 'a' (List.replicate rest 'a'))
    rwa [split, ← List.append_nil (crowdName few), List.append_assoc, List.nil_append]
  refine List.pairwise_append.mpr ⟨?_, List.pairwise_singleton .., ?_⟩
  · exact List.pairwise_map.mpr (List.pairwise_lt_range.imp fun fewer => longer _ _ fewer)
  · intro left inCrowd right last
    obtain ⟨count, _, rfl⟩ := List.mem_map.mp inCrowd
    obtain rfl := List.mem_singleton.mp last
    exact List.cons_lt_cons_iff.mpr (.inl (by decide))

theorem mem_crowd {entry : Str × Stored} :
    entry ∈ crowd ↔ (∃ count ∈ List.range 1000, (crowdName count, blank) = entry) ∨
      entry = (['z', '/', 'x'], blank) := by
  rw [crowd, List.mem_append, List.mem_map, List.mem_singleton]

def crowdedStore : Store where
  bucketNames := [lit "data"]
  objects _ := ⟨crowd, crowd_ascending⟩
  now := []

theorem crowded_get? {name : Str} {body : Stored} (member : (name, body) ∈ crowd) :
    crowdedStore.get? (lit "data") name = some body :=
  (OrderedMap.get?_eq_some_iff (crowdedStore.objects (lit "data"))).mpr member

theorem crowd_folder {name : Str} (inside : SubDirectory crowdedStore (lit "data") [] name) :
    name = ['z'] := by
  obtain ⟨key, ⟨rest, rfl⟩, stored⟩ := inside.below
  obtain ⟨body, found⟩ := Option.ne_none_iff_exists'.mp stored
  have listed := (OrderedMap.get?_eq_some_iff _).mp found
  obtain ⟨count, _, same⟩ | last := mem_crowd.mp listed
  · have slash : '/' ∈ crowdName count := by
      rw [(Prod.mk.inj same).1]
      simp
    cases List.eq_of_mem_replicate slash
  · have split : name ++ '/' :: rest = ['z', '/', 'x'] := by
      simpa using (Prod.mk.inj last).1
    cases name with
    | nil => exact absurd rfl inside.named
    | cons first tail =>
        obtain ⟨rfl, later⟩ := List.cons.inj split
        cases tail with
        | nil => rfl
        | cons second _ =>
            obtain ⟨rfl, _⟩ := List.cons.inj later
            exact absurd inside.plain (by simp)

/-- The request for the folders ends among the files. -/
theorem crowd_hides_folder :
    ¬ ∃ pages, ChunkRun Conventions.plain crowdedStore
        (loadPage Unicode.ascii [] none (lit "data") [] anyUser) (fun _ => 1000) 0 none pages ∧
      ShowsListing crowdedStore (lit "data") ⟨[], none, none⟩ pages := by
  intro shown
  have reach := (folder_pages_iff (fun _ => 1000)
    (rfl : prepareListPath Unicode.ascii [] none (lit "data") anyUser [] =
      .ok ⟨[], none, none⟩) rfl).mp shown
  have inside : SubDirectory crowdedStore (lit "data") [] ['z'] := by
    refine ⟨by simp, by decide, ['z', '/', 'x'], ⟨['x'], rfl⟩, ?_⟩
    rw [crowded_get? (mem_crowd.mpr (.inr rfl))]
    exact Option.some_ne_none _
  have few := reach ⟨[['z']], by decide, fun name inside => by simp [crowd_folder inside]⟩ _ inside
  have crowded : (List.range 1000).map (fun count =>
      Listed.object (storedObject (crowdName count, blank))) ⊆
        linesBefore crowdedStore (lit "data") [] ['z'] := by
    intro line member
    obtain ⟨count, counted, rfl⟩ := List.mem_map.mp member
    have plain : '/' ∉ crowdName count := fun slash => by cases List.eq_of_mem_replicate slash
    refine List.mem_filter.mpr ⟨mem_listing.mpr ⟨(crowdName count, blank), ?_, ?_, ?_⟩, ?_⟩
    · exact mem_crowd.mpr (.inl ⟨count, counted, rfl⟩)
    · exact List.nil_prefix
    · exact @listed_of_plain (levelParams (lit "data") [] none) rfl _ blank plain
    · exact decide_eq_true (List.cons_lt_cons_iff.mpr (.inl (by decide)))
  have distinct : ((List.range 1000).map fun count =>
      Listed.object (storedObject (crowdName count, blank))).Nodup := by
    refine List.nodup_range.map fun left right same => ?_
    have names : crowdName left = crowdName right :=
      congrArg S3Object.key (Listed.object.inj same)
    simpa [crowdName] using congrArg List.length names
  have many := (List.subperm_of_subset distinct crowded).length_le
  rw [List.length_map, List.length_range] at many
  exact absurd few (Nat.not_lt.mpr many)

end Shown

end S3Manager.Storage
