import S3Manager.Storage.ClientChunks

/-! The server search against the listing of the folder: the narrowed walk shows the
entries whose names start with the term. -/

set_option autoImplicit false

namespace S3Manager.Storage

open Python Access Library Utils

section Narrowed

variable {store : Store} {bucket base term : Str}

/-- The lines that a search for the term is left with. -/
def lineStarts (base term : Str) (line : Listed) : Bool := (base ++ term).isPrefixOf line.name

theorem level_append (plain : '/' ∉ term) (rest : Str) :
    level (term ++ rest) = term ++ level rest := by
  induction term with
  | nil => rfl
  | cons c more ih =>
      have other : c ≠ '/' := by
        rintro rfl
        exact plain List.mem_cons_self
      rw [List.cons_append, level, if_neg other,
        ih fun member => plain (List.mem_cons_of_mem _ member), List.cons_append]

theorem prefix_level (plain : '/' ∉ term) {rest : Str} : term <+: level rest ↔ term <+: rest := by
  constructor
  · intro starts
    by_cases below : '/' ∈ rest
    · exact starts.trans (level_slash below).2
    · rwa [level_of_plain below] at starts
  · rintro ⟨rest, rfl⟩
    exact ⟨level rest, (level_append plain rest).symm⟩

/-- A key below the term makes the same line in both listings. -/
theorem listed_narrowed (plain : '/' ∉ term) (rest : Str) (stored : Stored) :
    listed (levelParams bucket (base ++ term) none) (base ++ term ++ rest, stored) =
      listed (levelParams bucket base none) (base ++ (term ++ rest), stored) := by
  have narrow := @listed_of_slash (levelParams bucket (base ++ term) none) rfl rest stored
  have narrowPlain := @listed_of_plain (levelParams bucket (base ++ term) none) rfl rest stored
  have wide := @listed_of_slash (levelParams bucket base none) rfl (term ++ rest) stored
  have widePlain := @listed_of_plain (levelParams bucket base none) rfl (term ++ rest) stored
  by_cases below : '/' ∈ rest
  · have name : base ++ term ++ level rest = base ++ level (term ++ rest) := by
      rw [level_append plain, List.append_assoc]
    exact (narrow below).trans ((congrArg Listed.group name).trans
      (wide (List.mem_append_right _ below)).symm)
  · have whole : '/' ∉ term ++ rest := by simp [plain, below]
    have name : base ++ term ++ rest = base ++ (term ++ rest) := List.append_assoc ..
    exact (narrowPlain below).trans
      ((congrArg (fun key => Listed.object (storedObject (key, stored))) name).trans
        (widePlain whole).symm)

/-- The lines of the narrowed listing are the lines of the folder that start with the term. -/
theorem mem_narrowed (plain : '/' ∉ term) {line : Listed} :
    line ∈ store.listing (levelParams bucket (base ++ term) none) ↔
      line ∈ store.listing (levelParams bucket base none) ∧ lineStarts base term line = true := by
  rw [mem_listing, mem_listing, lineStarts, List.isPrefixOf_iff_prefix]
  constructor
  · rintro ⟨⟨key, stored⟩, member, ⟨rest, rfl⟩, rfl⟩
    have same := @listed_narrowed bucket base term plain rest stored
    have name := @listed_name (levelParams bucket (base ++ term) none) rfl rest stored
    refine ⟨⟨(base ++ (term ++ rest), stored), ?_, List.prefix_append .., same.symm⟩, ?_⟩
    · rw [← List.append_assoc]
      exact member
    · exact ⟨level rest, name.symm⟩
  · rintro ⟨⟨⟨key, stored⟩, member, ⟨rest, rfl⟩, rfl⟩, starts⟩
    have name := @listed_name (levelParams bucket base none) rfl rest stored
    rw [name] at starts
    obtain ⟨rest, rfl⟩ := (prefix_level plain).mp ((List.prefix_append_right_inj _).mp starts)
    refine ⟨(base ++ term ++ rest, stored), ?_, List.prefix_append .., listed_narrowed plain rest stored⟩
    rw [List.append_assoc]
    exact member

/-- The name of an entry starts with the term iff its line does. -/
theorem entry_starts (plain : '/' ∉ term) {line : Listed} {entry : FileEntry}
    (inside : line ∈ store.listing (levelParams bucket base none))
    (shown : lineDirectory base line = some entry ∨ lineFile base line = some entry) :
    lineStarts base term line = true ↔ term <+: entry.name := by
  rw [lineStarts, List.isPrefixOf_iff_prefix]
  obtain directory | file := shown
  · obtain ⟨commonPrefix, rfl, rfl, -⟩ := lineDirectory_some directory
    have whole : (Listed.group commonPrefix).name = base ++ (directoryName base commonPrefix ++ ['/']) :=
      @group_name store (levelParams bucket base none) rfl _ inside
    rw [whole]
    refine (List.prefix_append_right_inj base).trans (List.prefix_concat_iff.trans ?_)
    refine or_iff_right fun same => plain ?_
    rw [same]
    exact List.mem_append_right _ List.mem_cons_self
  · obtain ⟨object, rfl, -, named, -⟩ := lineFile_some file
    have whole := (@object_name store (levelParams bucket base none) rfl _ inside).1
    rw [Listed.name, whole, named]
    exact List.prefix_append_right_inj _

/-- The narrowed listing shows the entries of the folder that start with the term. -/
theorem narrowed_entries (plain : '/' ∉ term) :
    (lineEntries base (store.listing (levelParams bucket (base ++ term) none))).Perm
      ((lineEntries base (store.listing (levelParams bucket base none))).filter
        fun entry => term.isPrefixOf entry.name) := by
  have part : ∀ line ∈ store.listing (levelParams bucket (base ++ term) none),
      line ∈ store.listing (levelParams bucket base none) :=
    fun line member => ((mem_narrowed plain).mp member).1
  have narrow := @lineEntries_nodup store (levelParams bucket base none) rfl _ part
    (@folder_ascending store (levelParams bucket (base ++ term) none) rfl)
  have wide := @lineEntries_nodup store (levelParams bucket base none) rfl _ (fun _ => id)
    (folder_ascending rfl)
  refine (List.perm_ext_iff_of_nodup narrow (wide.filter _)).mpr fun entry => ?_
  rw [List.mem_filter, List.isPrefixOf_iff_prefix, lineEntries, List.mem_append, lineEntries,
    List.mem_append]
  simp only [List.mem_filterMap, mem_narrowed plain]
  constructor
  · rintro (⟨line, ⟨inside, starts⟩, shown⟩ | ⟨line, ⟨inside, starts⟩, shown⟩)
    · exact ⟨.inl ⟨line, inside, shown⟩, (entry_starts plain inside (.inl shown)).mp starts⟩
    · exact ⟨.inr ⟨line, inside, shown⟩, (entry_starts plain inside (.inr shown)).mp starts⟩
  · rintro ⟨⟨line, inside, shown⟩ | ⟨line, inside, shown⟩, starts⟩
    · exact .inl ⟨line, ⟨inside, (entry_starts plain inside (.inl shown)).mpr starts⟩, shown⟩
    · exact .inr ⟨line, ⟨inside, (entry_starts plain inside (.inr shown)).mpr starts⟩, shown⟩

end Narrowed

section Search

variable {unicode : Unicode} {config : Dict} {conventions : Conventions} {store : Store}
  {role : Option Str} {bucket path raw term : Str} {user : UserDict} {listing : ListEntry}

/-- Loading a folder with a search for a term. -/
def searchFolder (unicode : Unicode) (config : Dict) (role : Option Str) (bucket path : Str)
    (user : UserDict) (term : Str) (size : Int) (token : Option Str) : S3Program ClientLoad :=
  listObjectsClientLoadForRole unicode config role bucket path user size token term

/-- The chunks of the search show the entries of the folder that start with the term, each
once. -/
structure Filters (term : Str) (full found : List ClientLoad) : Prop where
  once : (found.flatMap ClientLoad.entries).Nodup
  same : (found.flatMap ClientLoad.entries).Perm
    ((full.flatMap ClientLoad.entries).filter fun entry => term.isPrefixOf entry.name)

theorem sanitized_plain (accepted : sanitizeSearchPrefix raw = .ok term) (plain : '/' ∉ raw) :
    '/' ∉ term := by
  unfold sanitizeSearchPrefix at accepted
  dsimp only at accepted
  split_ifs at accepted with empty blank control
  · rw [← Except.ok.inj accepted]
    exact List.not_mem_nil
  · rw [← Except.ok.inj accepted]
    exact List.not_mem_nil
  · cases accepted
  · obtain rfl := Except.ok.inj accepted
    obtain ⟨leading, trailing, split, _, _⟩ := trimBy_split isSpace raw
    refine fun member => plain ?_
    rw [split]
    exact List.mem_append_left _ (List.mem_append_right _ member)

theorem folder_filters (sizes others : Nat → Int)
    (prepared : prepareListPath unicode config role bucket user path = .ok listing)
    (real : listing.virtualDirectories = none) (plain : '/' ∉ term) :
    ∃ full found,
      ChunkRun conventions store (loadFolder unicode config role bucket path user) others 0 none
        full ∧
      ChunkRun conventions store (searchFolder unicode config role bucket path user term) sizes 0
        none found ∧ Filters term full found := by
  obtain ⟨full, complete, all⟩ := folder_chunks others prepared real
    (rfl : store.remaining conventions
      (levelParams bucket (folderPrefix listing.effectivePath) none) = .ok _)
  obtain ⟨found, searched, some⟩ := chunks_of_remaining term sizes prepared real 0
    (rfl : store.remaining conventions
      (levelParams bucket (folderPrefix listing.effectivePath ++ term) none) = .ok _)
  have narrow := some.entries.trans (narrowed_entries plain)
  have distinct := @lineEntries_nodup store
    (levelParams bucket (folderPrefix listing.effectivePath) none) rfl _ (fun _ => id)
    (folder_ascending rfl)
  exact ⟨full, found, complete, searched, narrow.nodup_iff.mpr (distinct.filter _),
    narrow.trans (all.entries.symm.filter _)⟩

/-- A root that stands for several prefixes has the same folders in both listings. -/
theorem virtual_filters_iff {directories : List FileEntry} (sizes others : Nat → Int)
    (prepared : prepareListPath unicode config role bucket user path = .ok listing)
    (virtual : listing.virtualDirectories = some directories) :
    (∃ full found,
      ChunkRun conventions store (loadFolder unicode config role bucket path user) others 0 none
        full ∧
      ChunkRun conventions store (searchFolder unicode config role bucket path user term) sizes 0
        none found ∧ Filters term full found) ↔
      ∀ directory ∈ directories, term <+: directory.name := by
  have whole := @virtual_chunk unicode config conventions store role bucket path user listing
    directories [] others prepared virtual
  have same := @virtual_chunk unicode config conventions store role bucket path user listing
    directories term sizes prepared virtual
  have entries : [ClientLoad.mk directories [] false none listing.effectivePath].flatMap
      ClientLoad.entries = directories := by simp [ClientLoad.entries]
  constructor
  · rintro ⟨full, found, complete, searched, filters⟩ directory member
    obtain rfl := complete.unique whole
    obtain rfl := searched.unique same
    have kept := filters.same.mem_iff.mp (entries ▸ member)
    exact List.isPrefixOf_iff_prefix.mp (List.mem_filter.mp kept).2
  · intro matching
    have kept : directories.filter (fun entry => term.isPrefixOf entry.name) = directories :=
      List.filter_eq_self.mpr fun entry member =>
        List.isPrefixOf_iff_prefix.mpr (matching entry member)
    refine ⟨_, _, whole, same, ?_, ?_⟩
    · rw [entries]
      exact virtual_nodup prepared virtual
    · rw [entries, kept]

/-- The search is the filter of the listing, unless it is answered with the folders of a
root that stands for several prefixes: these would all have to match. -/
theorem search_filters_iff (sizes others : Nat → Int)
    (prepared : prepareListPath unicode config role bucket user path = .ok listing)
    (accepted : sanitizeSearchPrefix raw = .ok term) (plain : '/' ∉ raw) :
    (∃ full found,
      ChunkRun conventions store (loadFolder unicode config role bucket path user) others 0 none
        full ∧
      ChunkRun conventions store (searchFolder unicode config role bucket path user term) sizes 0
        none found ∧ Filters term full found) ↔
      ∀ directories, listing.virtualDirectories = some directories →
        ∀ directory ∈ directories, term <+: directory.name := by
  cases virtual : listing.virtualDirectories with
  | none =>
      refine iff_of_true ?_ fun _ some => by cases some
      exact folder_filters sizes others prepared virtual (sanitized_plain accepted plain)
  | some directories =>
      rw [virtual_filters_iff sizes others prepared virtual]
      exact ⟨fun matching _ same => Option.some.inj same ▸ matching, fun matching => matching _ rfl⟩

theorem search_filters_mixed :
    ∃ full found,
      ChunkRun Conventions.plain mixedStore
        (loadFolder Unicode.ascii [] none (lit "data") (lit "f") anyUser) (fun _ => 2) 0 none full ∧
      ChunkRun Conventions.plain mixedStore
        (searchFolder Unicode.ascii [] none (lit "data") (lit "f") anyUser (lit "b")) (fun _ => 1) 0
        none found ∧ Filters (lit "b") full found :=
  (search_filters_iff (fun _ => 1) (fun _ => 2)
    (rfl : prepareListPath Unicode.ascii [] none (lit "data") anyUser (lit "f") =
      .ok ⟨lit "f", none, none⟩)
    (rfl : sanitizeSearchPrefix (lit " b") = .ok (lit "b")) (by decide)).mpr
    fun _ virtual => by cases virtual

/-- A role with two prefixes. -/
def twoPrefixes : Dict :=
  [(lit "roles", .arr [.obj [(lit "name", .str (lit "stand")), (lit "allowed_prefixes",
    .arr [.str (lit "alpha"), .str (lit "beta")])]])]

/-- The search at the root of the role shows a folder that does not match. -/
theorem root_search_unfiltered :
    ¬ ∃ full found,
      ChunkRun Conventions.plain mixedStore
        (loadFolder Unicode.ascii twoPrefixes (some (lit "stand")) (lit "data") [] anyUser)
        (fun _ => 1000) 0 none full ∧
      ChunkRun Conventions.plain mixedStore
        (searchFolder Unicode.ascii twoPrefixes (some (lit "stand")) (lit "data") [] anyUser
          (lit "al")) (fun _ => 1000) 0 none found ∧ Filters (lit "al") full found := by
  intro filters
  have matching := (virtual_filters_iff (fun _ => 1000) (fun _ => 1000)
    (rfl : prepareListPath Unicode.ascii twoPrefixes (some (lit "stand")) (lit "data") anyUser [] =
      .ok ⟨[], some ((sortedNames Unicode.ascii [lit "alpha", lit "beta"]).map .directory),
        some (lit "stand")⟩) rfl).mp filters
  have listed : lit "beta" ∈ sortedNames Unicode.ascii [lit "alpha", lit "beta"] := by
    rw [sortedNames, List.mem_mergeSort, List.mem_dedup]
    exact List.mem_cons_of_mem _ List.mem_cons_self
  exact absurd (matching _ (List.mem_map_of_mem listed)) (by decide)

end Search

end S3Manager.Storage
