import S3Manager.Doors.BrowserSession

/-! Deleting what was selected: when the request for a name goes to the key of the row
that the user picked under that name, over every use of the file browser. -/

set_option autoImplicit false

namespace S3Manager.Doors

open Python Access Storage Library Ui

section Joined

variable {path root name : Str}

/-- The joined path is the key of a row iff the row was listed in this folder, and its
name has no slash at its ends. -/
theorem joined_iff (visible : name ≠ []) :
    joinPath [path, name] = folderPrefix root ++ name ↔
      folderPrefix root = folderPrefix (stripSlash path) ∧ stripSlash name = name := by
  constructor
  · intro same
    have plain : rstripSlash name = name := by
      refine rdropWhile_eq_self_of_last isSlash fun init c ends => ?_
      rw [ends, ← List.append_assoc] at same
      exact Bool.eq_false_iff.mpr fun slash => joinPath_last path name _
        (isSlash_iff.mp slash ▸ ends ▸ same)
    have noName := stripSlash_live visible plain
    have short : (stripSlash name).length ≤ name.length := trimBy_length_le isSlash name
    rw [joinPath_two] at same
    split_ifs at same with noPath
    · have lengths := congrArg List.length same
      rw [List.length_append] at lengths
      have empty : folderPrefix root = [] := List.length_eq_zero_iff.mp (by omega)
      rw [empty, List.nil_append] at same
      exact ⟨by rw [empty, noPath]; rfl, same⟩
    · cases root with
      | nil =>
          -- The name would start with the folder, which does not start with a slash.
          have kept : (stripSlash path).dropWhile isSlash = stripSlash path :=
            dropWhile_eq_self_of_head isSlash fun c rest starts => trimBy_head_not isSlash starts
          have whole : name = stripSlash path ++ '/' :: stripSlash name := same.symm
          have split := stripSlash_split whole (by rw [kept]; exact noPath) plain
          have lengths := congrArg List.length split
          rw [List.length_append, List.length_cons] at lengths
          omega
      | cons c more =>
          have whole : stripSlash path ++ '/' :: stripSlash name = c :: more ++ '/' :: name := by
            simpa [folderPrefix] using same
          obtain ⟨folder, slashes⟩ := joined_eq_key (stripSlash_last path) plain (.inl rfl) whole
          exact ⟨by rw [folder], slashes⟩
  · rintro ⟨folder, slashes⟩
    rw [folder, joinPath_two, slashes, folderPrefix]
    by_cases noPath : stripSlash path = []
    · simp [noPath]
    · simp [noPath, visible]

end Joined

section Resolving

/-- A directory of this name is listed. -/
def Browser.Beside (browser : Browser) (name : Str) : Prop :=
  ∃ directory ∈ browser.screen.directories, directory.name = name

/-- The name of a row stands for the row in the folder that is open: the row was listed
there, its name has no slash at its ends and its prefix only one, and a directory of the
name is listed iff the row is one. -/
structure Resolves (browser : Browser) (row : Row) : Prop where
  bucket : row.bucket = browser.place.bucket
  folder : row.root = stripSlash browser.place.pathFromUrl
  slashes : stripSlash row.entry.name = row.entry.name
  oneSlash : row.entry.isDirectory = true → endsWith row.key ['/', '/'] = false
  kind : row.entry.isDirectory = true ↔ browser.Beside row.entry.name

variable {browser : Browser} {name : Str} {row : Row}

theorem browser_sorted (browser : Browser) :
    (∀ directory ∈ browser.screen.directories, directory.isDirectory = true) ∧
      ∀ file ∈ browser.screen.files, file.isDirectory = false := by
  constructor
  · intro directory member
    obtain ⟨page, loaded, inside⟩ := List.mem_flatMap.mp (mem_distinctNames member)
    exact browser.active.directories page loaded directory inside
  · intro file member
    obtain ⟨page, loaded, inside⟩ := List.mem_flatMap.mp member
    exact browser.active.files page loaded file inside

/-- No slash is left at the end of a listed directory. -/
theorem beside_plain (beside : browser.Beside name) : rstripSlash name = name := by
  obtain ⟨directory, listed, rfl⟩ := beside
  obtain ⟨page, loaded, inside⟩ := List.mem_flatMap.mp (mem_distinctNames listed)
  obtain ⟨key, stands⟩ :=
    browser.active.shown page loaded directory (List.mem_append_left _ inside)
  have kind := browser.active.directories page loaded directory inside
  cases stands with
  | file _ => cases kind
  | directory _ _ => exact List.rdropWhile_idempotent isSlash _

theorem deletePath_beside (beside : browser.Beside name) :
    browser.deletePath name = joinPath [browser.place.pathFromUrl, name] ++ ['/'] := by
  obtain ⟨sorted, plain⟩ := browser_sorted browser
  exact (lookup_eq sorted plain name _).trans (if_pos beside)

theorem deletePath_alone (alone : ¬ browser.Beside name) :
    browser.deletePath name = joinPath [browser.place.pathFromUrl, name] := by
  obtain ⟨sorted, plain⟩ := browser_sorted browser
  exact (lookup_eq sorted plain name _).trans (if_neg alone)

theorem row_visible (row : Row) : row.entry.name ≠ [] := by
  obtain ⟨bucket, root, entry, key, stands⟩ := row
  cases stands with
  | file visible => exact visible
  | directory visible _ => exact visible

theorem row_file (file : row.entry.isDirectory = false) :
    row.key = folderPrefix row.root ++ row.entry.name := by
  obtain ⟨bucket, root, entry, key, stands⟩ := row
  cases stands with
  | file _ => rfl
  | directory _ _ => cases file

theorem row_directory (directory : row.entry.isDirectory = true) :
    ∃ rest, row.key = folderPrefix row.root ++ rest ∧ row.entry.name = rstripSlash rest ∧
      endsWith rest ['/'] = true := by
  obtain ⟨bucket, root, entry, key, stands⟩ := row
  cases stands with
  | file _ => cases directory
  | @directory rest _ slash => exact ⟨rest, rfl, rfl, slash⟩

theorem folderPrefix_inj {left right : Str} :
    folderPrefix left = folderPrefix right ↔ left = right := by
  refine ⟨fun same => ?_, fun same => by rw [same]⟩
  unfold folderPrefix at same
  split_ifs at same with noLeft noRight noRight
  · rw [List.isEmpty_iff.mp noLeft, List.isEmpty_iff.mp noRight]
  · simp at same
  · simp at same
  · exact List.append_cancel_right same

theorem row_path (browser : Browser) (row : Row) :
    joinPath [browser.place.pathFromUrl, row.entry.name] =
        folderPrefix row.root ++ row.entry.name ↔
      row.root = stripSlash browser.place.pathFromUrl ∧
        stripSlash row.entry.name = row.entry.name := by
  rw [joined_iff (row_visible row), folderPrefix_inj]

/-- The request for a name goes to the bucket and the key of a row iff the name stands
for the row. -/
theorem resolves_iff : Resolves browser row ↔
    (browser.place.bucket, browser.deletePath row.entry.name) = (row.bucket, row.key) := by
  cases kind : row.entry.isDirectory with
  | false =>
      constructor
      · rintro ⟨bucket, folder, slashes, -, alone⟩
        have none : ¬ browser.Beside row.entry.name := fun beside => by
          rw [alone.mpr beside] at kind
          cases kind
        rw [deletePath_alone none, (row_path browser row).mpr ⟨folder, slashes⟩, row_file kind,
          bucket]
      · intro sent
        obtain ⟨bucket, path⟩ := Prod.mk.inj sent
        rw [row_file kind] at path
        have none : ¬ browser.Beside row.entry.name := by
          rintro ⟨directory, listed, named⟩
          rw [deletePath_beside ⟨directory, listed, named⟩] at path
          have plain := beside_plain ⟨directory, listed, named⟩
          have kept := key_plain (folderPrefix row.root) (plain ▸ row_visible row) plain
          exact rstripSlash_last (kept.trans path.symm)
        rw [deletePath_alone none] at path
        obtain ⟨folder, slashes⟩ := (row_path browser row).mp path
        refine ⟨bucket.symm, folder, slashes, fun directory => ?_, fun directory => ?_,
          fun beside => absurd beside none⟩
        · rw [kind] at directory
          cases directory
        · rw [kind] at directory
          cases directory
  | true =>
      obtain ⟨rest, key, named, slash⟩ := row_directory kind
      have visible : rstripSlash rest ≠ [] := named ▸ row_visible row
      constructor
      · rintro ⟨bucket, folder, slashes, oneSlash, listed⟩
        have single := oneSlash kind
        rw [key, oneSlash_iff visible slash] at single
        rw [deletePath_beside (listed.mp kind), (row_path browser row).mpr ⟨folder, slashes⟩, key,
          single, named, bucket, List.append_assoc]
      · intro sent
        obtain ⟨bucket, path⟩ := Prod.mk.inj sent
        have beside : browser.Beside row.entry.name := by
          by_contra alone
          obtain ⟨init, ends⟩ := endsWith_slash_iff.mp slash
          rw [deletePath_alone alone, key, ends, ← List.append_assoc] at path
          exact joinPath_last _ _ _ path
        rw [deletePath_beside beside, key] at path
        obtain ⟨single, joined⟩ := bare_path visible path (joinPath_last _ _)
        rw [← named] at joined
        obtain ⟨folder, slashes⟩ := (row_path browser row).mp joined
        refine ⟨bucket.symm, folder, slashes, fun _ => ?_, fun _ => beside, fun _ => kind⟩
        rw [key]
        exact (oneSlash_iff visible slash).mpr single

end Resolving

section Picking

variable {names orderedNames : List Str} {name : Str}

theorem mem_addName {other : Str} : name ∈ addName names other ↔ name ∈ names ∨ name = other := by
  unfold addName
  split
  · next present =>
      constructor
      · exact .inl
      · rintro (old | rfl)
        · exact old
        · exact List.contains_iff_mem.mp present
  · simp

theorem mem_foldl_addName {added : List Str} :
    name ∈ added.foldl addName names ↔ name ∈ names ∨ name ∈ added := by
  induction added generalizing names with
  | nil => simp
  | cons head rest ih =>
      rw [List.foldl_cons, ih, mem_addName, List.mem_cons, or_assoc]

theorem between_map {α β : Type} (f : α → β) (items : List α) (first second : Nat) :
    between (items.map f) first second = (between items first second).map f := by
  simp [between, List.map_take, List.map_drop]

theorem shiftRange_some {anchorRef : Option Str} {anchor : Str} {shiftKey : Bool}
    {first last : Nat} (range : shiftRange name shiftKey orderedNames anchorRef =
      some (anchor, first, last)) : anchorRef = some anchor ∧ first ≤ last := by
  cases anchorRef with
  | none => cases range
  | some found =>
      simp only [shiftRange, Option.bind_eq_bind, Option.bind_some] at range
      split_ifs at range
      simp only [Option.bind_eq_some_iff, Option.some.injEq, Prod.mk.injEq] at range
      obtain ⟨anchorIdx, -, targetIdx, -, rfl, rfl, rfl⟩ := range
      exact ⟨rfl, le_trans (Nat.min_le_left ..) (Nat.le_max_left ..)⟩

theorem between_slice {first last : Nat} (ordered : first ≤ last) :
    between orderedNames first last = (orderedNames.take (last + 1)).drop first := by
  rw [between, min_eq_left ordered, max_eq_right ordered, List.drop_take,
    Nat.sub_add_comm ordered]

/-- The selected names are the set that the updater of the hook keeps. -/
theorem handleToggle_updates (selected : List Str) (anchor : Option Str) (name : Str)
    (shiftKey : Bool) (orderedNames : List Str) :
    Ui.handleToggle name shiftKey orderedNames selected.toFinset anchor =
      ⟨(handleToggle selected anchor name shiftKey orderedNames).1.toFinset,
        (handleToggle selected anchor name shiftKey orderedNames).2⟩ := by
  unfold Ui.handleToggle handleToggle clickedSpan
  cases range : shiftRange name shiftKey orderedNames anchor with
  | none =>
      dsimp only [Option.map_none]
      by_cases present : name ∈ selected
      · rw [if_pos (List.contains_iff_mem.mpr present), toggleName,
          if_pos (List.mem_toFinset.mpr present)]
        congr 1
        ext row
        simp [and_comm]
      · rw [if_neg (mt List.contains_iff_mem.mp present), toggleName,
          if_neg (mt List.mem_toFinset.mp present)]
        congr 1
        ext row
        simp only [Finset.mem_insert, List.mem_toFinset, List.mem_append, List.mem_singleton]
        exact or_comm
  | some found =>
      obtain ⟨anchored, first, last⟩ := found
      obtain ⟨rfl, ordered⟩ := shiftRange_some range
      dsimp only [Option.map_some, Option.getD_some]
      rw [between_slice ordered]
      split_ifs with kept
      · congr 1
        ext row
        have inside : anchored ∈ selected := List.contains_iff_mem.mp kept
        rw [mem_forceRange]
        split_ifs with clicked <;> simp [mem_foldl_addName, clicked, inside]
      · congr 1
        ext row
        have outside : anchored ∉ selected := mt List.contains_iff_mem.mpr kept
        rw [mem_forceRange]
        split_ifs with clicked <;> simp [clicked, outside]

/-- A click selects no name but those of the rows clicked. -/
theorem mem_handleToggle {selected : List Str} {anchor : Option Str} {target : Str}
    {shiftKey : Bool}
    (member : name ∈ (handleToggle selected anchor target shiftKey orderedNames).1) :
    name ∈ selected ∨
      (∃ anchorIdx targetIdx,
        clickedSpan anchor target shiftKey orderedNames = some (anchorIdx, targetIdx) ∧
          name ∈ between orderedNames anchorIdx targetIdx) ∨
      clickedSpan anchor target shiftKey orderedNames = none ∧ name = target := by
  unfold handleToggle at member
  cases span : clickedSpan anchor target shiftKey orderedNames with
  | some ends =>
      obtain ⟨anchorIdx, targetIdx⟩ := ends
      simp only [span] at member
      split_ifs at member with kept
      · obtain old | inside := mem_foldl_addName.mp member
        · exact .inl old
        · exact .inr (.inl ⟨anchorIdx, targetIdx, rfl, inside⟩)
      · exact .inl (List.mem_filter.mp member).1
  | none =>
      simp only [span] at member
      split_ifs at member with present
      · exact .inl (List.mem_filter.mp member).1
      · obtain old | new := List.mem_append.mp member
        · exact .inl old
        · exact .inr (.inr ⟨rfl, List.mem_singleton.mp new⟩)

theorem mem_handleToggleAll {selected : List Str}
    (member : name ∈ handleToggleAll selected orderedNames) : name ∈ orderedNames := by
  unfold handleToggleAll at member
  split at member
  · cases member
  · simpa using mem_foldl_addName.mp member

end Picking

section Tracking

/-- The user has picked a row for each selected name and for each waiting one, and the
names of the picked rows are held. -/
structure Tracked (session : Session) : Prop where
  selected : ∀ name ∈ session.browser.selected, ∃ row ∈ session.picked, row.entry.name = name
  waiting : ∀ name ∈ session.browser.pendingDelete, ∃ row ∈ session.pending, row.entry.name = name
  picked : ∀ row ∈ session.picked, row.entry.name ∈ session.browser.selected
  pending : ∀ row ∈ session.pending, row.entry.name ∈ session.browser.pendingDelete

variable {session next : Session} {action : Action}

theorem back_names (browser : Browser) :
    (browser.after .back).selected = browser.selected ∧
      (browser.after .back).pendingDelete = browser.pendingDelete ∧
      (browser.after .back).confirmOpen = browser.confirmOpen := by
  simp only [Browser.after]
  split
  · exact ⟨rfl, rfl, rfl⟩
  · exact ⟨rfl, rfl, rfl⟩

theorem search_names (browser : Browser) (trimmed : Str) :
    ((browser.after (.enterServerSearch trimmed)).selected = browser.selected ∨
        (browser.after (.enterServerSearch trimmed)).selected = []) ∧
      (browser.after (.enterServerSearch trimmed)).pendingDelete = browser.pendingDelete ∧
      (browser.after (.enterServerSearch trimmed)).confirmOpen = browser.confirmOpen := by
  simp only [Browser.after]
  split
  · exact ⟨.inl rfl, rfl, rfl⟩
  · exact ⟨.inr rfl, rfl, rfl⟩

theorem clicked_covers {browser : Browser} {rows : List Row} {row : Row} {shiftKey : Bool}
    {name : Str}
    (member : name ∈ (browser.after (.toggleSelect rows row shiftKey)).selected) :
    name ∈ browser.selected ∨
      ∃ shown ∈ browser.clicked (.toggleSelect rows row shiftKey), shown.entry.name = name := by
  obtain old | ⟨anchorIdx, targetIdx, span, inside⟩ | ⟨span, rfl⟩ := mem_handleToggle member
  · exact .inl old
  · rw [between_map] at inside
    obtain ⟨shown, clicked, named⟩ := List.mem_map.mp inside
    exact .inr ⟨shown, by simpa only [Browser.clicked, span] using clicked, named⟩
  · exact .inr ⟨row, by simp only [Browser.clicked, span, List.mem_singleton], rfl⟩

/-- A name that is selected after an action was selected before, or was clicked. -/
theorem selected_after {browser : Browser} {name : Str}
    (member : name ∈ (browser.after action).selected) :
    (name ∈ browser.selected ∧ ∀ rows, action ≠ .toggleSelectAll rows) ∨
      ∃ row ∈ browser.clicked action, row.entry.name = name := by
  cases action with
  | toggleSelect rows row shiftKey =>
      obtain old | clicked := clicked_covers member
      · exact .inl ⟨old, by simp⟩
      · exact .inr clicked
  | toggleSelectAll rows =>
      obtain ⟨row, shown, named⟩ := List.mem_map.mp (mem_handleToggleAll member)
      exact .inr ⟨row, shown, named⟩
  | back => exact .inl ⟨(back_names browser).1 ▸ member, by simp⟩
  | enterServerSearch trimmed =>
      obtain same | empty := (search_names browser trimmed).1
      · exact .inl ⟨same ▸ member, by simp⟩
      · rw [empty] at member
        cases member
  | openFolder | clearSelection | batchDone => cases member
  | breadcrumb | visit | redirect | exitServerSearch | requestDelete | requestSelected
    | cancelDelete | confirmDelete | folderLoaded | searchLoaded =>
      exact .inl ⟨member, by simp⟩

theorem mem_candidates {row : Row}
    (member : row ∈ session.picked ∧ (∀ rows, action ≠ .toggleSelectAll rows) ∨
      row ∈ session.browser.clicked action) : row ∈ session.candidates action := by
  unfold Session.candidates
  split
  · next rows =>
      obtain ⟨-, other⟩ | clicked := member
      · exact absurd rfl (other rows)
      · exact clicked
  · obtain ⟨old, -⟩ | clicked := member
    · exact List.mem_append_left _ old
    · exact List.mem_append_right _ clicked

theorem candidates_cases {row : Row} (member : row ∈ session.candidates action) :
    row ∈ session.picked ∨ row ∈ session.browser.clicked action := by
  unfold Session.candidates at member
  split at member
  · exact .inr member
  · exact List.mem_append.mp member

/-- Only a request changes what waits for the confirmation. -/
theorem pending_after :
    (∃ row, action = .requestDelete row ∧ (session.after action).pending = [row] ∧
        (session.browser.after action).pendingDelete = [row.entry.name]) ∨
      (action = .requestSelected ∧ (session.after action).pending = session.picked ∧
        (session.browser.after action).pendingDelete = session.browser.selected) ∨
      (session.after action).pending = session.pending ∧
        (session.browser.after action).pendingDelete = session.browser.pendingDelete ∧
        ((session.browser.after action).confirmOpen = true →
          session.browser.confirmOpen = true) := by
  cases action with
  | requestDelete row => exact .inl ⟨row, rfl, rfl, rfl⟩
  | requestSelected => exact .inr (.inl ⟨rfl, rfl, rfl⟩)
  | back =>
      obtain ⟨-, names, stays⟩ := back_names session.browser
      exact .inr (.inr ⟨rfl, names, stays ▸ id⟩)
  | enterServerSearch trimmed =>
      obtain ⟨-, names, stays⟩ := search_names session.browser trimmed
      exact .inr (.inr ⟨rfl, names, stays ▸ id⟩)
  | cancelDelete | confirmDelete =>
      exact .inr (.inr ⟨rfl, rfl, fun stays => absurd stays Bool.false_ne_true⟩)
  | openFolder | breadcrumb | visit | redirect | exitServerSearch | toggleSelect
    | toggleSelectAll | clearSelection | batchDone | folderLoaded | searchLoaded =>
      exact .inr (.inr ⟨rfl, rfl, id⟩)

theorem tracked_step (session : Session) (action : Action) (next : Session)
    (tracked : Tracked session) (taken : SessionStep session action next) :
    Tracked next := by
  obtain ⟨-, rfl⟩ := taken
  refine ⟨fun name member => ?_, fun name member => ?_, fun row member => ?_,
    fun row member => ?_⟩
  · -- Each name that is still selected keeps a row among the candidates.
    have kept (row : Row) (candidate : row ∈ session.candidates action)
        (named : row.entry.name = name) : row ∈ (session.after action).picked :=
      List.mem_filter.mpr ⟨candidate, List.contains_iff_mem.mpr (named ▸ member)⟩
    obtain ⟨old, other⟩ | ⟨row, clicked, named⟩ := selected_after member
    · obtain ⟨row, picked, named⟩ := tracked.selected name old
      exact ⟨row, kept row (mem_candidates (.inl ⟨picked, other⟩)) named, named⟩
    · exact ⟨row, kept row (mem_candidates (.inr clicked)) named, named⟩
  · have member : name ∈ (session.browser.after action).pendingDelete := member
    obtain ⟨row, rfl, rows, names⟩ | ⟨rfl, rows, names⟩ | ⟨rows, names, -⟩ :=
      @pending_after session action
    · exact ⟨row, by simp [rows], (by simpa [names] using member : name = _).symm⟩
    · rw [rows]
      exact tracked.selected name (names ▸ member)
    · rw [rows]
      exact tracked.waiting name (names ▸ member)
  · exact List.contains_iff_mem.mp (List.mem_filter.mp member).2
  · change row.entry.name ∈ (session.browser.after action).pendingDelete
    obtain ⟨row, rfl, rows, names⟩ | ⟨rfl, rows, names⟩ | ⟨rows, names, -⟩ :=
      @pending_after session action
    · rw [rows, List.mem_singleton] at member
      simp [names, member]
    · rw [names]
      exact tracked.picked row (rows ▸ member)
    · rw [names]
      exact tracked.pending row (rows ▸ member)

theorem tracked_fresh (fresh : session.Fresh) : Tracked session := by
  obtain ⟨selected, picked, pendingDelete, pending, -⟩ := fresh
  constructor <;> simp [selected, picked, pendingDelete, pending]

theorem tracked_run {start final : Session} {trace : List (Session × Action)}
    (run : Execution SessionStep start trace final) (fresh : start.Fresh) :
    ∀ visited ∈ trace, Tracked visited.1 :=
  (run.always tracked_step (tracked_fresh fresh)).2

end Tracking

section Care

/-- The names that a later confirmation can still send: the selected ones, and those
waiting in an open dialog. -/
def Browser.held (browser : Browser) : List Str :=
  browser.selected ++ if browser.confirmOpen then browser.pendingDelete else []

/-- Every held name means the same in another state of the page: the bucket and the folder
are the same, and the same directories of these names are listed. -/
structure Browser.Preserves (browser next : Browser) : Prop where
  bucket : browser.held ≠ [] → next.place.bucket = browser.place.bucket
  folder : browser.held ≠ [] →
    stripSlash next.place.pathFromUrl = stripSlash browser.place.pathFromUrl
  beside : ∀ name ∈ browser.held, next.Beside name ↔ browser.Beside name

/-- The clicks pick rows whose names stand for them, and what is held stays the same when
the address, the search or the lists change. -/
def Browser.Careful (browser : Browser) : Action → Prop
  | .toggleSelect rows row shiftKey =>
      ∀ shown ∈ browser.clicked (.toggleSelect rows row shiftKey),
        shown.entry.name ∈ (browser.after (.toggleSelect rows row shiftKey)).selected →
          Resolves browser shown
  | .toggleSelectAll rows => ∀ shown ∈ rows,
      shown.entry.name ∈ (browser.after (.toggleSelectAll rows)).selected → Resolves browser shown
  | .requestDelete row => Resolves browser row
  | .breadcrumb allowedPrefixes path =>
      browser.Preserves (browser.after (.breadcrumb allowedPrefixes path))
  | .visit place => browser.Preserves (browser.after (.visit place))
  | .back => browser.Preserves (browser.after .back)
  | .redirect => browser.Preserves (browser.after .redirect)
  | .exitServerSearch => browser.Preserves (browser.after .exitServerSearch)
  | .folderLoaded place listing => browser.Preserves (browser.after (.folderLoaded place listing))
  | .searchLoaded place term listing =>
      browser.Preserves (browser.after (.searchLoaded place term listing))
  | .openFolder _ | .enterServerSearch _ | .clearSelection | .requestSelected | .cancelDelete
    | .confirmDelete _ | .batchDone => True

/-- The requests that an action sends go to the rows that were picked under their names. -/
def Targets (session : Session) (action : Action) : Prop :=
  ∀ name ∈ session.browser.attempted action,
    (∃ row ∈ session.pending, row.entry.name = name) ∧
      ∀ row ∈ session.pending, row.entry.name = name →
        (session.browser.place.bucket, session.browser.deletePath name) = (row.bucket, row.key)

/-- The names of an action's requests stand for the rows that were picked under them. -/
def Resolved (session : Session) (action : Action) : Prop :=
  ∀ name ∈ session.browser.attempted action, ∀ row ∈ session.pending, row.entry.name = name →
    Resolves session.browser row

/-- The names of the picked rows stand for them. -/
structure Aligned (session : Session) : Prop where
  tracked : Tracked session
  picked : ∀ row ∈ session.picked, Resolves session.browser row
  pending : session.browser.confirmOpen = true →
    ∀ row ∈ session.pending, Resolves session.browser row

variable {browser next : Browser} {session : Session} {action : Action} {row : Row}

theorem preserves_resolves (preserves : browser.Preserves next)
    (held : row.entry.name ∈ browser.held) (resolves : Resolves browser row) :
    Resolves next row := by
  have live : browser.held ≠ [] := List.ne_nil_of_mem held
  obtain ⟨bucket, folder, slashes, oneSlash, kind⟩ := resolves
  exact ⟨bucket.trans (preserves.bucket live).symm, folder.trans (preserves.folder live).symm,
    slashes, oneSlash, kind.trans (preserves.beside _ held).symm⟩

theorem resolves_unmoved (place : next.place = browser.place) (active : next.active = browser.active)
    (resolves : Resolves browser row) : Resolves next row := by
  obtain ⟨bucket, folder, slashes, oneSlash, kind⟩ := resolves
  refine ⟨place ▸ bucket, place ▸ folder, slashes, oneSlash, kind.trans ?_⟩
  simp only [Browser.Beside, Screen.directories, Browser.screen, active]

theorem held_selected {name : Str} (member : name ∈ browser.selected) : name ∈ browser.held :=
  List.mem_append_left _ member

theorem held_pending {name : Str} (isOpen : browser.confirmOpen = true)
    (member : name ∈ browser.pendingDelete) : name ∈ browser.held := by
  rw [Browser.held, isOpen]
  exact List.mem_append_right _ member

/-- After a careful action a held name stands for the same row as before. -/
theorem resolves_after (offered : browser.Offers action) (careful : browser.Careful action)
    (held : row.entry.name ∈ (browser.after action).held) (resolves : Resolves browser row) :
    Resolves (browser.after action) row := by
  cases action with
  | openFolder name =>
      obtain ⟨closed, -⟩ := offered
      have empty : (browser.after (.openFolder name)).held = [] := by
        simp [Browser.held, Browser.after, Browser.go, Browser.push, Browser.unselected, closed]
      rw [empty] at held
      cases held
  | enterServerSearch trimmed =>
      have closed : browser.confirmOpen = false := offered
      simp only [Browser.after] at held ⊢
      split at held
      · next blank => rwa [if_pos blank]
      · simp [Browser.held, Browser.unselected, closed] at held
  | back =>
      obtain ⟨selected, names, stays⟩ := back_names browser
      rw [Browser.held, selected, names, stays] at held
      exact preserves_resolves careful held resolves
  | breadcrumb | visit | redirect | exitServerSearch | folderLoaded | searchLoaded =>
      exact preserves_resolves careful held resolves
  | toggleSelect | toggleSelectAll | clearSelection | requestDelete | requestSelected
    | cancelDelete | confirmDelete | batchDone =>
      exact @resolves_unmoved browser _ row rfl rfl resolves

theorem clicked_resolves (careful : browser.Careful action) (clicked : row ∈ browser.clicked action)
    (selected : row.entry.name ∈ (browser.after action).selected) : Resolves browser row := by
  cases action with
  | toggleSelect | toggleSelectAll => exact careful row clicked selected
  | openFolder | breadcrumb | visit | back | redirect | enterServerSearch | exitServerSearch
    | clearSelection | requestDelete | requestSelected | cancelDelete | confirmDelete | batchDone
    | folderLoaded | searchLoaded => cases clicked

theorem aligned_step (session : Session) (action : Action) (next : Session)
    (aligned : Aligned session) (careful : session.browser.Careful action)
    (taken : SessionStep session action next) : Aligned next := by
  have tracked := tracked_step session action next aligned.tracked taken
  obtain ⟨offered, rfl⟩ := taken
  refine ⟨tracked, fun row member => ?_, fun isOpen row member => ?_⟩
  · have selected := tracked.picked row member
    refine resolves_after offered careful (held_selected selected) ?_
    obtain old | clicked := candidates_cases (List.mem_filter.mp member).1
    · exact aligned.picked row old
    · exact clicked_resolves careful clicked selected
  · refine resolves_after offered careful (held_pending isOpen (tracked.pending row member)) ?_
    obtain ⟨requested, rfl, rows, -⟩ | ⟨rfl, rows, -⟩ | ⟨rows, -, stays⟩ :=
      @pending_after session action
    · rw [rows, List.mem_singleton] at member
      exact member ▸ careful
    · exact aligned.picked row (rows ▸ member)
    · exact aligned.pending (stays isOpen) row (rows ▸ member)

theorem aligned_fresh (fresh : session.Fresh) : Aligned session where
  tracked := tracked_fresh fresh
  picked := by simp [fresh.picked]
  pending := by simp [fresh.closed]

theorem attempted_pending {name : Str} (member : name ∈ browser.attempted action) :
    name ∈ browser.pendingDelete := by
  cases action with
  | confirmDelete count => exact List.mem_of_mem_take member
  | openFolder | breadcrumb | visit | back | redirect | enterServerSearch | exitServerSearch
    | toggleSelect | toggleSelectAll | clearSelection | requestDelete | requestSelected
    | cancelDelete | batchDone | folderLoaded | searchLoaded => cases member

theorem attempted_open {name : Str} (offered : browser.Offers action)
    (member : name ∈ browser.attempted action) : browser.confirmOpen = true := by
  cases action with
  | confirmDelete count => exact offered
  | openFolder | breadcrumb | visit | back | redirect | enterServerSearch | exitServerSearch
    | toggleSelect | toggleSelectAll | clearSelection | requestDelete | requestSelected
    | cancelDelete | batchDone | folderLoaded | searchLoaded => cases member

theorem targets_iff (tracked : Tracked session) :
    Targets session action ↔ Resolved session action := by
  constructor
  · intro targets name attempted row waits named
    obtain ⟨-, sent⟩ := targets name attempted
    exact resolves_iff.mpr (named ▸ sent row waits named)
  · intro resolved name attempted
    refine ⟨tracked.waiting name (attempted_pending attempted), fun row waits named => ?_⟩
    exact named ▸ resolves_iff.mp (resolved name attempted row waits named)

/-- In every use of the browser, the requests of the confirmations go to the picked rows
exactly when the names still stand for them; they do when each action is a careful one. -/
theorem selected_deletes_iff {start final : Session} {trace : List (Session × Action)}
    (run : Execution SessionStep start trace final) (fresh : start.Fresh) :
    ((∀ visited ∈ trace, Targets visited.1 visited.2) ↔
        ∀ visited ∈ trace, Resolved visited.1 visited.2) ∧
      ((∀ visited ∈ trace, visited.1.browser.Careful visited.2) →
        ∀ visited ∈ trace, Targets visited.1 visited.2) := by
  have tracked := tracked_run run fresh
  refine ⟨forall₂_congr fun visited member => targets_iff (tracked visited member), ?_⟩
  intro careful visited member
  obtain ⟨-, aligned⟩ := run.invariant aligned_step (aligned_fresh fresh) careful
  obtain ⟨next, offered, -⟩ := run.taken visited member
  refine (targets_iff (tracked visited member)).mpr fun name attempted row waits _ => ?_
  exact (aligned visited member).pending (attempted_open offered attempted) row waits

end Care

section SameName

/-- A bucket with a file and a folder of one name. -/
def twinStore : Store where
  bucketNames := [lit "data"]
  objects _ := (OrderedMap.empty.insert (lit "report") ⟨[1], none, []⟩).insert
    (lit "report/draft.txt") ⟨[2], none, []⟩
  now := []

/-- The root of that bucket, as the browser shows it to an administrator. -/
def twinScreen : Screen where
  pathFromUrl := []
  pages := [⟨[.directory (lit "report")], [⟨lit "report", false, 1, some []⟩], false, none, []⟩]

theorem twinScreen_loaded : Loaded Unicode.ascii [] none adminUser (lit "data") twinScreen := by
  intro chunk member
  obtain rfl := List.mem_singleton.mp member
  refine ⟨Conventions.plain, 0, ⟨some 1000, none, true, none⟩, calm twinStore, calm twinStore, rfl,
    ?_⟩
  have ran : (Web.listFiles Unicode.ascii [] 0 none (lit "data") [] adminUser
      ⟨some 1000, none, true, none⟩).run Conventions.plain (calm twinStore) =
        (.ok (.clientLoad ⟨sortByName Unicode.ascii [.directory (lit "report")],
          sortByName Unicode.ascii [⟨lit "report", false, 1, some []⟩], false, none, []⟩),
          calm twinStore) := rfl
  simpa [sortByName, twinScreen] using ran

/-- The root of the bucket has just been opened, and its first chunk has arrived. -/
def justOpened (listing : Listing) : Session where
  browser := {
    place := ⟨[], lit "data", []⟩
    history := []
    serverSearchTerm := none
    folder := fun place => if place = ⟨[], lit "data", []⟩ then listing else .empty
    search := fun _ _ => .empty
    selected := []
    anchor := none
    pendingDelete := []
    confirmOpen := false
    batches := 0 }
  picked := []
  pending := []

theorem justOpened_fresh (listing : Listing) : (justOpened listing).Fresh :=
  ⟨rfl, rfl, rfl, rfl, rfl⟩

/-- Select a row, request the delete, and confirm it. -/
def deleteRow (start : Session) (row : Row) : List (Session × Action) :=
  let picked := start.after (.toggleSelect [row] row false)
  [(start, .toggleSelect [row] row false), (picked, .requestSelected),
    (picked.after .requestSelected, .confirmDelete 1)]

theorem deleteRow_run {start : Session} {row : Row} (fresh : start.Fresh)
    (shows : start.browser.Shows row) :
    ∃ final, Execution SessionStep start (deleteRow start row) final := by
  let picked := start.after (.toggleSelect [row] row false)
  have selected : picked.browser.selected = [row.entry.name] := by
    simp [picked, Session.after, Browser.after, handleToggle, clickedSpan, shiftRange, fresh.selected]
  have clicked : SessionStep start (.toggleSelect [row] row false) picked :=
    ⟨⟨fresh.closed, by simp, by simpa using shows⟩, rfl⟩
  have requested : SessionStep picked .requestSelected (picked.after .requestSelected) :=
    ⟨⟨fresh.closed, selected ▸ List.cons_ne_nil _ _⟩, rfl⟩
  have confirmed : SessionStep (picked.after .requestSelected) (.confirmDelete 1)
      ((picked.after .requestSelected).after (.confirmDelete 1)) := ⟨rfl, rfl⟩
  exact ⟨_, .snoc (.snoc (.snoc .nil clicked) requested) confirmed⟩

/-- The file with a blank at its end, as it is shown. -/
def blankRow : Row where
  bucket := lit "data"
  root := []
  entry := ⟨lit "report.txt ", false, 1, some []⟩
  key := lit "report.txt "
  stands := .file (by decide)

theorem selected_deletes_blank :
    let start := justOpened (.ofLoaded blankScreen blankScreen_loaded)
    ∀ visited ∈ deleteRow start blankRow,
      Targets visited.1 visited.2 ∧ Resolved visited.1 visited.2 := by
  let start := justOpened (.ofLoaded blankScreen blankScreen_loaded)
  have fresh : start.Fresh := justOpened_fresh _
  have shows : start.browser.Shows blankRow := ⟨rfl, _, List.mem_cons_self, rfl, List.mem_cons_self⟩
  have stands : Resolves start.browser blankRow := by
    refine ⟨rfl, rfl, by decide, by decide, fun directory => absurd directory (by decide), ?_⟩
    rintro ⟨directory, listed, -⟩
    cases listed
  have careful : ∀ visited ∈ deleteRow start blankRow, visited.1.browser.Careful visited.2 := by
    refine List.forall_mem_cons.mpr ⟨fun shown clicked _ => ?_, List.forall_mem_cons.mpr
      ⟨trivial, List.forall_mem_cons.mpr ⟨trivial, by simp⟩⟩⟩
    obtain rfl : shown = blankRow := List.mem_singleton.mp clicked
    exact stands
  obtain ⟨final, run⟩ := deleteRow_run fresh shows
  obtain ⟨iff, safe⟩ := selected_deletes_iff run fresh
  exact fun visited member => ⟨safe careful visited member, iff.mp (safe careful) visited member⟩

/-- The file that has a folder of its name beside it. -/
def twinRow : Row where
  bucket := lit "data"
  root := []
  entry := ⟨lit "report", false, 1, some []⟩
  key := lit "report"
  stands := .file (by decide)

/-- The request for the selected file goes to the folder of its name. -/
theorem same_name_deletes_folder :
    ¬ ∀ (start final : Session) (trace : List (Session × Action)),
      Execution SessionStep start trace final → start.Fresh →
        ∀ visited ∈ trace, Targets visited.1 visited.2 := by
  intro always
  let start := justOpened (.ofLoaded twinScreen twinScreen_loaded)
  have shows : start.browser.Shows twinRow :=
    ⟨rfl, _, List.mem_cons_self, rfl, List.mem_cons_of_mem _ List.mem_cons_self⟩
  obtain ⟨final, run⟩ := deleteRow_run (justOpened_fresh _) shows
  have targets := always start final (deleteRow start twinRow) run (justOpened_fresh _) _
    (List.mem_cons_of_mem _ (List.mem_cons_of_mem _ List.mem_cons_self))
  have sent := (targets (lit "report") List.mem_cons_self).2 twinRow List.mem_cons_self rfl
  exact absurd (Prod.mk.inj sent).2 (by decide)

end SameName

end S3Manager.Doors
