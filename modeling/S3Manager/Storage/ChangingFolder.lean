import S3Manager.Storage.ChangingPages

/-! A folder that is loaded chunk by chunk while other clients change it. However many pages
and retries that takes, nothing is shown twice, and nothing that was there all along is left
out. -/

set_option autoImplicit false

namespace S3Manager.Storage

open Python Access Library

section Pages

variable {conventions : Conventions} {always : Store → Prop} {bucket searched : Str}

/-- The token that stands for a mark. -/
def StandsFor (conventions : Conventions) (token : Option Str) (mark : Option Str) : Prop :=
  token.filter (fun token => !token.isEmpty) = mark.map conventions.token

theorem standsFor_start (conventions : Conventions) : StandsFor conventions none none := rfl

theorem standsFor_next (conventions : Conventions) (next : Str) :
    StandsFor conventions (some (conventions.token next)) (some next) := by
  simp [StandsFor, conventions.token_nonempty next]

/-- The lines of a folder. -/
def FolderLines (always : Store → Prop) (bucket searched : Str) : List Listed → Prop :=
  Offered always (levelParams bucket searched none)

theorem folderLines_ascending (lines : List Listed)
    (offered : FolderLines always bucket searched lines) : Paging.Ascending Listed.name lines :=
  offered_ascending (.inr rfl) lines offered

theorem triple_level {token mark : Option Str} {size : Nat} (small : size ≤ 1000)
    (stands : StandsFor conventions token mark) :
    Triple conventions always always
      (S3Program.call (.listObjectsV2 { levelParams bucket searched token with maxKeys := some size }))
      (fun page store => always store ∧ ∃ lines, FolderLines always bucket searched lines ∧
        page = listPage conventions size (Paging.after Listed.name lines mark))
      always := by
  have sized : pageSize { levelParams bucket searched token with maxKeys := some size } = size :=
    min_eq_left small
  have never : Stable always fun _ => False := fun _ _ _ => id
  refine triple_post (triple_page stable_kept never (fun _ here => .inr here) stands)
    fun page store ended => ?_
  obtain ⟨here, lines, offered, same⟩ := ended.resolve_left id
  rw [sized] at same
  exact ⟨here, lines, offered, same⟩

end Pages

section Loop

variable {conventions : Conventions} {always : Store → Prop} {bucket base searched : Str}
  {maxClientLoad : Nat} {token mark : Option Str} {directories files : List FileEntry}

/-- What a chunk holds beside what was there before: the entries of the lines that were
drained, and the token to go on with. -/
structure Loaded (conventions : Conventions) (always : Store → Prop) (bucket base searched : Str)
    (mark : Option Str) (directories files : List FileEntry)
    (chunk : List FileEntry × List FileEntry × Option (Option Str)) : Prop where
  drained : ∃ taken ended,
    Paging.Drain Listed.name (FolderLines always bucket searched) mark taken ended ∧
      chunk.1 = directories ++ taken.filterMap (lineDirectory base) ∧
      chunk.2.1 = files ++ taken.filterMap (lineFile base) ∧
      chunk.2.2 = ended.map fun next => some (conventions.token next)

theorem loaded_append {front : List Listed} {next : Str}
    {chunk : List FileEntry × List FileEntry × Option (Option Str)}
    (first : Paging.Drain Listed.name (FolderLines always bucket searched) mark front (some next))
    (rest : Loaded conventions always bucket base searched (some next)
      (directories ++ front.filterMap (lineDirectory base))
      (files ++ front.filterMap (lineFile base)) chunk) :
    Loaded conventions always bucket base searched mark directories files chunk := by
  obtain ⟨back, ended, second, fst, snd, going⟩ := rest.drained
  refine ⟨front ++ back, ended, first.append second, ?_, ?_, going⟩
  · rw [fst, List.filterMap_append, List.append_assoc]
  · rw [snd, List.filterMap_append, List.append_assoc]

theorem page_entries (base : Str) (size : Nat) (lines : List Listed) :
    pageDirectories base (listPage conventions size lines) =
        (lines.take size).filterMap (lineDirectory base) ∧
      pageFiles base (listPage conventions size lines) =
        (lines.take size).filterMap (lineFile base) := by
  constructor
  · simpa using @pageDirectories_shows base _ _ (@shows_page conventions size lines)
  · simpa using @pageFiles_shows base _ _ (@shows_page conventions size lines)

/-- One page of a chunk, and what it leaves to the pages after it. -/
theorem triple_round {pages : Nat} (room : directories.length + files.length < maxClientLoad)
    (stands : StandsFor conventions token mark)
    (again : ∀ next directories files, pages ≠ 0 →
      List.length directories + List.length files < maxClientLoad →
      Triple conventions always always
        (clientLoadPages bucket base searched maxClientLoad pages (some (conventions.token next))
          directories files)
        (fun chunk store => always store ∧
          Loaded conventions always bucket base searched (some next) directories files chunk)
        always) :
    Triple conventions always always
      (clientLoadPages bucket base searched maxClientLoad (pages + 1) token directories files)
      (fun chunk store => always store ∧
        Loaded conventions always bucket base searched mark directories files chunk) always := by
  obtain ⟨size, sized⟩ : ∃ size,
      size = min 1000 (maxClientLoad - (directories.length + files.length)) := ⟨_, rfl⟩
  have small : size ≤ 1000 := by omega
  have live : 0 < size := by omega
  rw [clientLoadPages, ← sized]
  refine triple_bind stable_kept (triple_level small stands) fun page => triple_fact ?_
  rintro ⟨lines, offered, rfl⟩
  obtain ⟨shownDirectories, shownFiles⟩ :=
    @page_entries conventions base size (Paging.after Listed.name lines mark)
  simp only [shownDirectories, shownFiles]
  have marked := @Paging.nextMark_isSome _ _ Listed.name size
    (Paging.after Listed.name lines mark) live
  cases more : Paging.nextMark Listed.name size (Paging.after Listed.name lines mark) with
  | none =>
      rw [more] at marked
      have short : ¬ size < (Paging.after Listed.name lines mark).length := by
        simpa using marked.symm
      have ended : (listPage conventions size
          (Paging.after Listed.name lines mark)).isTruncated = false := decide_eq_false short
      have all : (Paging.after Listed.name lines mark).take size =
          Paging.after Listed.name lines mark := List.take_of_length_le (not_lt.mp short)
      simp only [ended, all, Bool.false_eq_true, if_false]
      exact triple_pure stable_kept fun store here =>
        ⟨here, _, none, .last offered, rfl, rfl, rfl⟩
  | some next =>
      rw [more] at marked
      have truncated : (listPage conventions size
          (Paging.after Listed.name lines mark)).isTruncated = true := marked.symm
      have going : (listPage conventions size
          (Paging.after Listed.name lines mark)).nextContinuationToken =
            some (conventions.token next) := congrArg (Option.map conventions.token) more
      have first : Paging.Drain Listed.name (FolderLines always bucket searched) mark
          ((Paging.after Listed.name lines mark).take size) (some next) := .page offered more
      simp only [truncated, going, if_true]
      split
      · exact triple_pure stable_kept fun store here =>
          ⟨here, _, some next, first, rfl, rfl, rfl⟩
      · next unfilled =>
          obtain ⟨unfilled, left⟩ := not_or.mp unfilled
          refine triple_post (again next _ _ left (not_le.mp unfilled)) fun chunk store ended => ?_
          exact ⟨ended.1, loaded_append first ended.2⟩

/-- One chunk, with as many pages as its budget allows; the induction is on that budget, and
what is still to come starts behind the mark that the pages so far have led to. -/
theorem triple_clientLoadPages (pages : Nat)
    (room : directories.length + files.length < maxClientLoad)
    (stands : StandsFor conventions token mark) :
    Triple conventions always always
      (clientLoadPages bucket base searched maxClientLoad (pages + 1) token directories files)
      (fun chunk store => always store ∧
        Loaded conventions always bucket base searched mark directories files chunk) always := by
  induction pages generalizing token mark directories files with
  | zero => exact triple_round room stands fun _ _ _ left => absurd rfl left
  | succ pages ih =>
      exact triple_round room stands fun next _ _ _ room => ih room (standsFor_next conventions next)

end Loop

section Chunks

variable {conventions : Conventions} {always : Store → Prop} {unicode : Unicode} {config : Dict}
  {role : Option Str} {bucket path : Str} {user : UserDict} {listing : ListEntry}
  {token mark : Option Str}

/-- One call of the helper, with whatever retry it makes. -/
theorem triple_chunk (prepared : prepareListPath unicode config role bucket user path = .ok listing)
    (real : listing.virtualDirectories = none) (stands : StandsFor conventions token mark)
    (size : Int) :
    Triple conventions always always (loadFolder unicode config role bucket path user size token)
      (fun chunk store => always store ∧ ∃ taken ended,
        Paging.Drain Listed.name (FolderLines always bucket (folderPrefix listing.effectivePath)) mark
            taken ended ∧
          ChunksShow listing.effectivePath (folderPrefix listing.effectivePath) [chunk] taken ∧
          chunk.truncated = ended.isSome ∧ chunk.nextToken = ended.map conventions.token)
      always := by
  rw [loadFolder, listObjectsClientLoadForRole, gatedListing, prepared, ofResult_ok_bind]
  simp only [real]
  refine triple_retry stable_kept (fun _ => stable_fact stable_kept) ?_
  refine triple_bind stable_kept (triple_clientLoadPages _ (by simp) stands)
    fun chunk => triple_fact fun loaded => triple_pure stable_kept fun store here => ⟨here, ?_⟩
  obtain ⟨taken, ended, drain, directories, files, going⟩ := loaded.drained
  rw [List.append_nil] at drain
  refine ⟨taken, ended, drain, ⟨?_, ?_, ?_⟩, ?_, ?_⟩
  · rw [List.flatMap_singleton]
    exact (sortByName_perm _).trans (by rw [directories, List.nil_append])
  · rw [List.flatMap_singleton]
    exact (sortByName_perm _).trans (by rw [files, List.nil_append])
  · intro only member
    rw [List.mem_singleton.mp member]
  · simp [going]
  · cases ended <;> simp [going]

/-- A client that loads chunk after chunk until an answer is not truncated. The first argument
bounds the number of calls. -/
def loadChunks (load : Int → Option Str → S3Program ClientLoad) (sizes : Nat → Int) :
    Nat → Nat → Option Str → S3Program (List ClientLoad)
  | 0, _, _ => S3Program.raise .outOfPages []
  | calls + 1, count, token => do
      let chunk ← load (sizes count) token
      if chunk.truncated then do
        let rest ← loadChunks load sizes calls (count + 1) chunk.nextToken
        pure (chunk :: rest)
      else pure [chunk]

/-- All chunks of a folder, each from the token of the one before. -/
theorem triple_loadChunks
    (prepared : prepareListPath unicode config role bucket user path = .ok listing)
    (real : listing.virtualDirectories = none) (stands : StandsFor conventions token mark)
    (sizes : Nat → Int) (calls count : Nat) :
    Triple conventions always always
      (loadChunks (loadFolder unicode config role bucket path user) sizes calls count token)
      (fun chunks store => always store ∧ ∃ taken,
        Paging.Drain Listed.name (FolderLines always bucket (folderPrefix listing.effectivePath)) mark
            taken none ∧
          ChunksShow listing.effectivePath (folderPrefix listing.effectivePath) chunks taken)
      always := by
  induction calls generalizing count token mark with
  | zero => exact triple_raise stable_kept
  | succ calls ih =>
      refine triple_bind stable_kept (triple_chunk prepared real stands (sizes count))
        fun chunk => triple_fact ?_
      rintro ⟨taken, ended, drain, shows, truncated, going⟩
      cases ended with
      | none =>
          simp only [truncated, Option.isSome_none, Bool.false_eq_true, if_false]
          exact triple_pure stable_kept fun store here => ⟨here, taken, drain, shows⟩
      | some next =>
          simp only [truncated, Option.isSome_some, if_true, going, Option.map_some]
          refine triple_bind stable_kept (ih (standsFor_next conventions next) (count + 1))
            fun chunks => triple_fact ?_
          rintro ⟨rest, later, shown⟩
          exact triple_pure stable_kept fun store here =>
            ⟨here, taken ++ rest, drain.append later, shows.append shown⟩

end Chunks

section Names

variable {always : Store → Prop} {bucket base : Str} {taken : List Listed} {ended : Option Str}

/-- Some object of the bucket lies in this directory. -/
def HasBelow (store : Store) (bucket directory : Str) : Prop :=
  ∃ key, directory ++ ['/'] <+: key ∧ store.get? bucket key ≠ none

theorem directory_line {line : Listed} {entry : FileEntry} {store : Store}
    (offered : line ∈ store.listing (levelParams bucket base none))
    (shown : lineDirectory base line = some entry) :
    line.name = base ++ entry.name ++ ['/'] ∧ HasBelow store bucket (base ++ entry.name) := by
  obtain ⟨commonPrefix, rfl, rfl, -⟩ := lineDirectory_some shown
  have form := @group_name store (levelParams bucket base none) rfl _ offered
  obtain ⟨-, key, under, present⟩ :=
    (@group_iff store (levelParams bucket base none) rfl _).mp offered
  have same : commonPrefix = base ++ directoryName base commonPrefix ++ ['/'] := by
    rw [List.append_assoc]
    exact form
  exact ⟨same, key, same ▸ under, present⟩

theorem file_line {line : Listed} {entry : FileEntry} {store : Store}
    (offered : line ∈ store.listing (levelParams bucket base none))
    (shown : lineFile base line = some entry) :
    line.name = base ++ entry.name ∧ store.get? bucket (base ++ entry.name) ≠ none := by
  obtain ⟨object, rfl, -, named, -⟩ := lineFile_some shown
  obtain ⟨form, -, present⟩ := @object_name store (levelParams bucket base none) rfl _ offered
  have same : object.key = base ++ entry.name := by
    rw [named]
    exact form
  exact ⟨same, same ▸ present⟩

/-- Lines with different names are shown as entries with different names. -/
theorem shown_nodup (show_ : Listed → Option FileEntry) (tail : Str)
    (named : ∀ store line entry, line ∈ Store.listing store (levelParams bucket base none) →
      show_ line = some entry → line.name = base ++ FileEntry.name entry ++ tail)
    (drain : Paging.Drain Listed.name (FolderLines always bucket base) none taken ended) :
    ((taken.filterMap show_).map FileEntry.name).Nodup := by
  refine List.pairwise_map.mpr (List.pairwise_filterMap.mpr ?_)
  refine List.Pairwise.imp_of_mem (fun leftMember rightMember before => ?_)
    (Paging.drain_ascending folderLines_ascending drain)
  intro left leftShown right rightShown same
  obtain ⟨_, ⟨leftStore, -, rfl⟩, leftOffered⟩ := Paging.drain_offered drain leftMember
  obtain ⟨_, ⟨rightStore, -, rfl⟩, rightOffered⟩ := Paging.drain_offered drain rightMember
  rw [named _ _ _ leftOffered leftShown, named _ _ _ rightOffered rightShown, same] at before
  exact lt_irrefl _ before

theorem not_slash_end {name : Str} (nonempty : name ≠ []) (plain : '/' ∉ name) :
    endsWith (base ++ name) ['/'] = false := by
  rw [← Bool.not_eq_true]
  intro ends
  obtain ⟨init, split⟩ := endsWith_slash_iff.mp ends
  obtain ⟨front, last, rfl⟩ := List.eq_nil_or_concat name |>.resolve_left nonempty
  rw [List.concat_eq_append, ← List.append_assoc] at split
  obtain ⟨-, same⟩ := List.append_inj' split rfl
  obtain rfl := List.singleton_inj.mp same
  exact plain (by simp)

theorem file_complete {name : Str} (nonempty : name ≠ []) (plain : '/' ∉ name)
    (there : ∀ store, always store → store.get? bucket (base ++ name) ≠ none)
    (drain : Paging.Drain Listed.name (FolderLines always bucket base) none taken none) :
    name ∈ (taken.filterMap (lineFile base)).map FileEntry.name := by
  have offers : ∀ lines, FolderLines always bucket base lines →
      ∃ line ∈ lines, Listed.name line = base ++ name := by
    rintro _ ⟨store, here, rfl⟩
    obtain ⟨object, line, same⟩ := (@object_iff store (levelParams bucket base none) rfl _).mpr
      ⟨⟨name, plain, rfl⟩, there store here⟩
    exact ⟨_, line, same⟩
  obtain ⟨line, member, same⟩ | ⟨stop, ends, -⟩ :=
    Paging.drain_complete folderLines_ascending drain offers (by simp)
  · obtain ⟨_, ⟨store, -, rfl⟩, offered⟩ := Paging.drain_offered drain member
    cases line with
    | group commonPrefix =>
        have form := @group_name store (levelParams bucket base none) rfl _ offered
        have split : base ++ name = base ++ (directoryName base commonPrefix ++ ['/']) :=
          same.symm.trans form
        rw [List.append_cancel_left split] at plain
        exact absurd (by simp) plain
    | object object =>
        have key : object.key = base ++ name := same
        have bare : dropBase base object.key = name := by rw [key, dropBase, List.drop_left]
        have unmarked : isMarker object = false := by
          rw [isMarker, key, not_slash_end nonempty plain, Bool.false_and]
        refine List.mem_map.mpr ⟨⟨name, false, object.size, some object.lastModified⟩, ?_, rfl⟩
        refine List.mem_filterMap.mpr ⟨_, member, ?_⟩
        simp [lineFile, Listed.object?, unmarked, bare, nonempty]
  · cases ends

theorem directory_complete {name : Str} (nonempty : name ≠ []) (plain : '/' ∉ name)
    (there : ∀ store, always store → HasBelow store bucket (base ++ name))
    (drain : Paging.Drain Listed.name (FolderLines always bucket base) none taken none) :
    name ∈ (taken.filterMap (lineDirectory base)).map FileEntry.name := by
  have offers : ∀ lines, FolderLines always bucket base lines →
      ∃ line ∈ lines, Listed.name line = base ++ name ++ ['/'] := by
    rintro _ ⟨store, here, rfl⟩
    exact ⟨.group (base ++ name ++ ['/']),
      (@group_iff store (levelParams bucket base none) rfl _).mpr
        ⟨⟨name, plain, rfl⟩, there store here⟩, rfl⟩
  obtain ⟨line, member, same⟩ | ⟨stop, ends, -⟩ :=
    Paging.drain_complete folderLines_ascending drain offers (by simp)
  · obtain ⟨_, ⟨store, -, rfl⟩, offered⟩ := Paging.drain_offered drain member
    cases line with
    | object object =>
        obtain ⟨form, bare, -⟩ := @object_name store (levelParams bucket base none) rfl _ offered
        have split : base ++ (name ++ ['/']) = base ++ dropBase base object.key := by
          rw [← List.append_assoc]
          exact same.symm.trans form
        exact absurd (List.append_cancel_left split ▸ by simp) bare
    | group commonPrefix =>
        have key : commonPrefix = base ++ (name ++ ['/']) := by
          rw [← List.append_assoc]
          exact same
        have shown : directoryName base commonPrefix = name := by
          rw [key, directoryName_group base plain]
        refine List.mem_map.mpr ⟨.directory name, ?_, rfl⟩
        refine List.mem_filterMap.mpr ⟨_, member, ?_⟩
        simp [lineDirectory, Listed.group?, shown, nonempty]
  · cases ends

end Names

section Beside

/-- What the chunks of a folder show, against what the store held while they were loaded: no
name twice, every entry that was there at every moment, and none that was there at no moment. -/
structure ShowsMoments (bucket base : Str) (chunks : List ClientLoad)
    (always sometime : (Store → Prop) → Prop) : Prop where
  directories_once : ((chunks.flatMap ClientLoad.directories).map FileEntry.name).Nodup
  files_once : ((chunks.flatMap ClientLoad.files).map FileEntry.name).Nodup
  directories_all : ∀ name, name ≠ [] → '/' ∉ name →
    always (fun store => HasBelow store bucket (base ++ name)) →
      name ∈ (chunks.flatMap ClientLoad.directories).map FileEntry.name
  files_all : ∀ name, name ≠ [] → '/' ∉ name →
    always (fun store => store.get? bucket (base ++ name) ≠ none) →
      name ∈ (chunks.flatMap ClientLoad.files).map FileEntry.name
  directories_real : ∀ name ∈ (chunks.flatMap ClientLoad.directories).map FileEntry.name,
    sometime fun store => HasBelow store bucket (base ++ name)
  files_real : ∀ name ∈ (chunks.flatMap ClientLoad.files).map FileEntry.name,
    sometime fun store => store.get? bucket (base ++ name) ≠ none

variable {Client β : Type} [DecidableEq Client] {conventions : Conventions} {unicode : Unicode}
  {config : Dict} {role : Option Str} {bucket path : Str} {user : UserDict} {listing : ListEntry}

/-- A folder is loaded chunk by chunk beside other clients, who may send S3 any requests in
between. Retries after expired credentials are among the runs. -/
theorem loaded_beside (sizes : Nat → Int) (calls : Nat) (others : Client → Program Effect.Reply β)
    (world : World) (schedule : List (Option Client)) {chunks : List ClientLoad}
    (prepared : prepareListPath unicode config role bucket user path = .ok listing)
    (real : listing.virtualDirectories = none)
    (ended : ((Pool.beside world (loadChunks (loadFolder unicode config role bucket path user) sizes
        calls 0 none) others).run (handle conventions) schedule).programs none = .pure (.ok chunks)) :
    ShowsMoments bucket (folderPrefix listing.effectivePath) chunks
      (fun holds => (Pool.beside world (loadChunks (loadFolder unicode config role bucket path user)
        sizes calls 0 none) others).Always (handle conventions) (fun met => holds met.store) schedule)
      (fun holds => (Pool.beside world (loadChunks (loadFolder unicode config role bucket path user)
        sizes calls 0 none) others).Sometime (handle conventions) (fun met => holds met.store)
          schedule) := by
  let base := folderPrefix listing.effectivePath
  let pool := Pool.beside world (loadChunks (loadFolder unicode config role bucket path user) sizes
    calls 0 none) others
  -- what is taken holds of any fact about the store that stays true along the run
  have drained (always : Store → Prop)
      (throughout : pool.Always (handle conventions) (fun met => always met.store) schedule) :
      ∃ taken, Paging.Drain Listed.name (FolderLines always bucket base) none taken none ∧
        ChunksShow listing.effectivePath base chunks taken :=
    (beside_ends (triple_loadChunks prepared real (standsFor_start conventions) sizes calls 0)
      (throughout [] (List.nil_prefix)) (Pool.interferes_of_always throughout) ended).2
  obtain ⟨taken, drain, shows⟩ := drained (fun _ => True) fun _ _ => trivial
  have directoryNames := shows.directories.map FileEntry.name
  have fileNames := shows.files.map FileEntry.name
  refine ⟨directoryNames.nodup_iff.mpr ?_, fileNames.nodup_iff.mpr ?_, ?_, ?_, ?_, ?_⟩
  · exact shown_nodup (lineDirectory base) ['/'] (fun _ _ _ offered shown =>
      (directory_line offered shown).1) drain
  · refine shown_nodup (lineFile base) [] (fun _ _ _ offered shown => ?_) drain
    rw [List.append_nil]
    exact (file_line offered shown).1
  · intro name nonempty plain throughout
    obtain ⟨taken, drain, shows⟩ :=
      drained (fun store => HasBelow store bucket (base ++ name)) throughout
    rw [(shows.directories.map FileEntry.name).mem_iff]
    exact directory_complete nonempty plain (fun _ => id) drain
  · intro name nonempty plain throughout
    obtain ⟨taken, drain, shows⟩ :=
      drained (fun store => store.get? bucket (base ++ name) ≠ none) throughout
    rw [(shows.files.map FileEntry.name).mem_iff]
    exact file_complete nonempty plain (fun _ => id) drain
  · intro name member
    refine Pool.sometime_of_not_always fun never => ?_
    obtain ⟨taken, drain, shows⟩ := drained (fun store => ¬ HasBelow store bucket (base ++ name)) never
    rw [(shows.directories.map FileEntry.name).mem_iff] at member
    obtain ⟨entry, shown, rfl⟩ := List.mem_map.mp member
    obtain ⟨line, inTaken, shown⟩ := List.mem_filterMap.mp shown
    obtain ⟨_, ⟨store, absent, rfl⟩, offered⟩ := Paging.drain_offered drain inTaken
    exact absent (directory_line offered shown).2
  · intro name member
    refine Pool.sometime_of_not_always fun never => ?_
    obtain ⟨taken, drain, shows⟩ := drained
      (fun store => ¬ store.get? bucket (base ++ name) ≠ none) never
    rw [(shows.files.map FileEntry.name).mem_iff] at member
    obtain ⟨entry, shown, rfl⟩ := List.mem_map.mp member
    obtain ⟨line, inTaken, shown⟩ := List.mem_filterMap.mp shown
    obtain ⟨_, ⟨store, absent, rfl⟩, offered⟩ := Paging.drain_offered drain inTaken
    exact absent (file_line offered shown).2

/-- Another client that puts a file and takes another away. -/
def meddler : Program Effect.Reply (Result Unit) :=
  .perform (.s3 (.putObject (lit "data") (lit "f/c") [3] (lit "text/plain") none)) fun _ =>
    .perform (.s3 (.deleteObject (lit "data") (lit "f//y"))) .pure

/-- A folder that is loaded one entry at a time beside that client. -/
def meddledPool : Pool Effect.Reply World fun member : Option Unit =>
    member.elim (Result (List ClientLoad)) fun _ => Result Unit :=
  Pool.beside ⟨mixedStore, fun _ => none⟩
    (loadChunks (loadFolder Unicode.ascii [] none (lit "data") (lit "f") anyUser) (fun _ => 1) 5 0
      none) fun _ : Unit => meddler

def meddledSchedule : List (Option Unit) :=
  [none, none, some (), none, none, none, some (), none, none, none, none, none]

theorem loaded_beside_meddler :
    ∃ chunks, ShowsMoments (lit "data") (folderPrefix (lit "f")) chunks
      (fun holds => meddledPool.Always (handle .plain) (fun met => holds met.store) meddledSchedule)
      (fun holds => meddledPool.Sometime (handle .plain) (fun met => holds met.store)
        meddledSchedule) := by
  have prepared : prepareListPath Unicode.ascii [] none (lit "data") anyUser (lit "f") =
      .ok ⟨lit "f", none, none⟩ := rfl
  have ended : ∃ chunks, (meddledPool.run (handle .plain) meddledSchedule).programs none =
      Program.pure (.ok chunks) := ⟨_, rfl⟩
  obtain ⟨chunks, ended⟩ := ended
  exact ⟨chunks, loaded_beside (fun _ => 1) 5 (fun _ : Unit => meddler) ⟨mixedStore, fun _ => none⟩
    meddledSchedule prepared rfl ended⟩

end Beside

end S3Manager.Storage
