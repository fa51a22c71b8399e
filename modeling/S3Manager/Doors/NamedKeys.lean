import Mathlib.Data.List.Dedup
import S3Manager.Doors.RouteKeys
import S3Manager.Storage.FolderLines
import S3Manager.Ui.FolderUrls
import S3Manager.Ui.JoinedPaths

/-! The way of a listed entry through the browser and back to S3: for which entries
and uploads the key that a route works on is the one that was meant. -/

set_option autoImplicit false

namespace S3Manager.Doors

open Python Utils Access Storage Library Ui

/-- The key of a shown file, and the common prefix of a shown directory, under the
prefix that was listed. -/
inductive ShownFor (base : Str) : FileEntry → Str → Prop where
  | file {name : Str} {size : Nat} {lastModified : Option Str} : name ≠ [] →
      ShownFor base ⟨name, false, size, lastModified⟩ (base ++ name)
  | directory {rest : Str} : rstripSlash rest ≠ [] → endsWith rest ['/'] = true →
      ShownFor base (.directory (rstripSlash rest)) (base ++ rest)

/-- The routes offered in the row of an entry work on its own key: a directory is opened, by way
of a URL, and deleted, a file is downloaded, signed and deleted. -/
def ActsOn (router : Router) (roleId bucket : Str) (screen : Screen) (entry : FileEntry)
    (key : Str) : Prop :=
  if entry.isDirectory then
    (∃ path, router.pathFromUrl (navigateToFolder roleId bucket screen.pathFromUrl entry.name) =
        some path ∧ KeyRoute.list.handed path = .ok key) ∧
      KeyRoute.delete.handed (screen.deletePath entry.name) = .ok key
  else
    KeyRoute.download.handed (screen.fullPath entry.name) = .ok key ∧
      KeyRoute.presignedUrl.handed (screen.fullPath entry.name) = .ok key ∧
      KeyRoute.delete.handed (screen.deletePath entry.name) = .ok key

/-- `handleBulkCopyUrl` has the same path signed for an entry of either kind. -/
def BulkCopies (screen : Screen) (entry : FileEntry) (key : Str) : Prop :=
  KeyRoute.presignedUrl.handed (screen.fullPath entry.name) = .ok key

/-- The name survives the way, a file has no directory of its name beside it, and a
directory stands for a prefix with one slash at its end and is opened by a path without `%`. -/
structure EntryKept (screen : Screen) (entry : FileEntry) (key : Str) : Prop where
  settled : screen.Settled
  name : NameKept screen.pathFromUrl entry.name
  alone : entry.isDirectory = false → ∀ directory ∈ screen.directories, directory.name ≠ entry.name
  oneSlash : entry.isDirectory = true → endsWith key ['/', '/'] = false
  percent : entry.isDirectory = true → '%' ∉ screen.pathFromUrl ∧ '%' ∉ entry.name

/-- An upload key without outer blanks, outer slashes, double dots and control characters. -/
structure UploadKept (key : Str) : Prop where
  blanks : strip key = key
  slashes : stripSlash key = key
  dotless : ¬ ['.', '.'] <:+: key
  printable : ∀ c ∈ key, isControl c = false

section Upload

theorem upload_kept_iff (key : Str) : KeyRoute.upload.handed key = .ok key ↔ UploadKept key := by
  rw [handed_key_iff (.inr (.inr rfl))]
  by_cases empty : key = []
  · subst empty
    exact ⟨fun _ => ⟨rfl, rfl, by simp, by simp⟩, fun _ => rfl⟩
  constructor
  · intro sent
    obtain ⟨dotless, relative, shape, printable⟩ := (sanitizePath_eq_ok_iff empty).mp sent
    have long : key.length ≤ (strip key).length := by
      calc key.length = (rstripSlash (strip key)).length := by rw [← shape]
        _ ≤ _ := rstripSlash_length_le _
    have blanks : strip key = key := trimBy_eq_self_of_length isSpace long
    rw [blanks] at dotless relative shape
    exact ⟨blanks, (stripSlash_of_head relative).trans shape.symm, dotless, printable⟩
  · intro kept
    obtain ⟨relative, plain⟩ := plain_of_stripSlash kept.slashes
    exact sanitizePath_of_strip empty (.inl kept.blanks) empty relative plain kept.dotless
      kept.printable

theorem sanitizePath_length {path key : Str} (accepted : sanitizePath path = .ok key) :
    key.length ≤ path.length := by
  by_cases empty : path = []
  · subst empty
    rw [← Except.ok.inj accepted]
  · obtain ⟨-, -, rfl, -⟩ := (sanitizePath_eq_ok_iff empty).mp accepted
    exact Nat.le_trans (rstripSlash_length_le _) (trimBy_length_le isSpace path)

theorem settled_of_named {screen : Screen} (named : screen.pathFromUrl ≠ []) : screen.Settled := by
  simp [Screen.Settled, Screen.folder, named]

/-- A file goes to its place below the folder that is shown, if the page is there and the key
is kept. -/
theorem upload_placed_iff (screen : Screen) (relativePath : Str) :
    KeyRoute.upload.handed (screen.uploadKey relativePath) =
        .ok (keyUnder screen.folder relativePath) ↔
      screen.Settled ∧ UploadKept (screen.uploadKey relativePath) := by
  by_cases settled : screen.Settled
  · rw [settled, ← Screen.uploadKey, upload_kept_iff]
    exact (and_iff_right settled).symm
  · refine iff_of_false (fun placed => ?_) fun both => settled both.1
    have root : screen.pathFromUrl = [] := by
      by_contra named
      exact settled (settled_of_named named)
    have live : screen.folder ≠ [] := fun empty => settled (empty.trans root.symm)
    rw [Screen.uploadKey, root] at placed
    have long := sanitizePath_length ((handed_key_iff (.inr (.inr rfl))).mp placed)
    simp only [keyUnder, List.isEmpty_nil, if_true, List.isEmpty_iff, live, if_false,
      List.length_append, List.length_cons] at long
    omega

end Upload

section Entries

variable {router : Router} {roleId bucketName : Str} {screen : Screen} {base key : Str}
  {entry : FileEntry}

/-- A name stands for a directory iff one of that name is listed: directories come first. -/
theorem lookup_eq (sorted : ∀ directory ∈ screen.directories, directory.isDirectory = true)
    (plain : ∀ file ∈ screen.files, file.isDirectory = false) (name fullPath : Str) :
    (match screen.items.find? fun item => item.name == name with
      | some item => if item.isDirectory then fullPath ++ ['/'] else fullPath
      | none => fullPath) =
      if ∃ directory ∈ screen.directories, directory.name = name then fullPath ++ ['/']
      else fullPath := by
  unfold Screen.items
  rw [List.find?_append]
  split_ifs with beside
  · obtain ⟨directory, member, named⟩ := beside
    cases found : screen.directories.find? fun item => item.name == name with
    | none => exact absurd named (by simpa using List.find?_eq_none.mp found directory member)
    | some item => simp [sorted item (List.mem_of_find?_eq_some found)]
  · have missing : (screen.directories.find? fun item => item.name == name) = none := by
      refine List.find?_eq_none.mpr fun directory member named => ?_
      exact beside ⟨directory, member, by simpa using named⟩
    rw [missing, Option.none_or]
    cases found : screen.files.find? fun item => item.name == name with
    | none => rfl
    | some item => simp [plain item (List.mem_of_find?_eq_some found)]

theorem deletePath_eq (sorted : ∀ directory ∈ screen.directories, directory.isDirectory = true)
    (plain : ∀ file ∈ screen.files, file.isDirectory = false) (name : Str) :
    screen.deletePath name =
      if ∃ directory ∈ screen.directories, directory.name = name then screen.fullPath name ++ ['/']
      else screen.fullPath name :=
  lookup_eq sorted plain name (screen.fullPath name)

theorem name_visible {name : Str} {front : Str} (visible : name ≠ []) : front ++ name ≠ [] := by
  simp [visible]

theorem file_actsOn_iff {name : Str} {size : Nat} {lastModified : Option Str}
    (settled : screen.Settled) (opened : Opened screen.pathFromUrl base) (visible : name ≠ [])
    (sorted : ∀ directory ∈ screen.directories, directory.isDirectory = true)
    (plain : ∀ file ∈ screen.files, file.isDirectory = false) :
    ActsOn router roleId bucketName screen ⟨name, false, size, lastModified⟩ (base ++ name) ↔
      EntryKept screen ⟨name, false, size, lastModified⟩ (base ++ name) := by
  simp only [ActsOn, Bool.false_eq_true, if_false, handed_key_iff (.inl rfl),
    handed_key_iff (.inr (.inl rfl)), handed_delete_iff]
  constructor
  · intro acts
    obtain ⟨sent, -, sanitized, accepted, -, form⟩ := acts
    -- The deleted key has no slash at its end, so no directory was found.
    have single : endsWith (rstrip (screen.deletePath name)) ['/'] = false := by
      rw [← Bool.not_eq_true]
      intro slash
      rw [if_pos slash] at form
      exact sanitizePath_last sent sanitized form
    have alone : ¬ ∃ directory ∈ screen.directories, directory.name = name := by
      intro beside
      rw [deletePath_eq sorted plain, if_pos beside, rstrip_slash, endsWith_concat_slash] at single
      cases single
    rw [deletePath_eq sorted plain, if_neg alone] at single
    refine ⟨settled, kept_of_file opened visible sent single,
      fun _ directory member named => ?_, by simp, by simp⟩
    exact alone ⟨directory, member, named⟩
  · intro kept
    have alone : ¬ ∃ directory ∈ screen.directories, directory.name = name := by
      intro beside
      obtain ⟨directory, member, named⟩ := beside
      exact kept.alone rfl directory member named
    obtain ⟨sent, -, single⟩ := join_kept opened visible kept.name
    rw [deletePath_eq sorted plain, if_neg alone]
    refine ⟨sent, sent, base ++ name, sent, name_visible visible, ?_⟩
    rw [Screen.fullPath, single]
    rfl

/-- A path that is short of a prefix by one slash is the prefix without its slashes. -/
theorem bare_path {rest text : Str} (visible : rstripSlash rest ≠ [])
    (same : text ++ ['/'] = base ++ rest) (last : ∀ init, text ≠ init ++ ['/']) :
    rest = rstripSlash rest ++ ['/'] ∧ text = base ++ rstripSlash rest := by
  obtain ⟨count, split⟩ := rstripSlash_split rest
  have keyPlain := key_plain base visible (List.rdropWhile_idempotent isSlash rest)
  have whole : base ++ rest = base ++ rstripSlash rest ++ List.replicate count '/' := by
    rw [List.append_assoc, ← split]
  rw [whole] at same
  cases count with
  | zero =>
      have ends : base ++ rstripSlash rest = text ++ ['/'] := by simpa using same.symm
      exact absurd (keyPlain.trans ends) rstripSlash_last
  | succ more =>
      rw [List.replicate_succ', ← List.append_assoc] at same
      have init := List.append_cancel_right same
      cases more with
      | zero => exact ⟨split, by simpa using init⟩
      | succ more =>
          rw [List.replicate_succ', ← List.append_assoc] at init
          exact absurd init (last _)

theorem oneSlash_iff {rest : Str} (visible : rstripSlash rest ≠ [])
    (slash : endsWith rest ['/'] = true) :
    endsWith (base ++ rest) ['/', '/'] = false ↔ rest = rstripSlash rest ++ ['/'] := by
  constructor
  · intro single
    obtain ⟨count, split⟩ := rstripSlash_split rest
    cases count with
    | zero =>
        obtain ⟨init, ends⟩ := endsWith_slash_iff.mp slash
        have same : rstripSlash rest = rest := by simpa using split.symm
        exact absurd (same.trans ends) rstripSlash_last
    | succ more =>
        cases more with
        | zero => exact split
        | succ more =>
            have double : endsWith (base ++ rest) ['/', '/'] = true := by
              refine endsWith_iff.mpr ⟨base ++ rstripSlash rest ++ List.replicate more '/', ?_⟩
              conv_rhs => rw [split]
              simp [List.replicate_succ']
            exact absurd double (by simp [single])
  · intro shape
    rw [← Bool.not_eq_true]
    intro double
    obtain ⟨front, ends⟩ := endsWith_iff.mp double
    have whole : (front ++ ['/']) ++ ['/'] = base ++ rstripSlash rest ++ ['/'] := by
      calc (front ++ ['/']) ++ ['/'] = base ++ rest := by simpa using ends
        _ = base ++ (rstripSlash rest ++ ['/']) := by rw [← shape]
        _ = _ := (List.append_assoc _ _ _).symm
    have keyPlain := key_plain base visible (List.rdropWhile_idempotent isSlash rest)
    exact rstripSlash_last (keyPlain.trans (List.append_cancel_right whole).symm)

/-- A path that is deleted as a prefix is that prefix behind blanks. -/
theorem deleted_shape {path root : Str} (last : ∀ init, path ≠ init ++ ['/'])
    (deleted : sanitizePath (path ++ ['/']) = .ok root) :
    ∃ leading, path = leading ++ root ∧ ∀ c ∈ leading, isSpace c = true := by
  obtain ⟨leading, split, blank⟩ := dropWhile_append_leading isSpace path
  refine ⟨leading, ?_, blank⟩
  obtain ⟨-, -, shape, -⟩ := (sanitizePath_eq_ok_iff (by simp)).mp deleted
  have behind : (path ++ ['/']).dropWhile isSpace = path.dropWhile isSpace ++ ['/'] := by
    conv_lhs => rw [split, List.append_assoc, dropWhile_blank_append isSpace _ blank]
    refine dropWhile_eq_self_of_head isSpace fun c rest starts => ?_
    cases live : path.dropWhile isSpace with
    | nil =>
        rw [live] at starts
        obtain ⟨rfl, -⟩ := List.cons.inj starts
        exact isSpace_slash
    | cons first more =>
        rw [live] at starts
        obtain ⟨rfl, -⟩ := List.cons.inj starts
        exact dropWhile_head_not isSpace live
  have plain : rstripSlash (path.dropWhile isSpace) = path.dropWhile isSpace := by
    refine rstripSlash_eq_self ?_
    rw [← Bool.not_eq_true]
    intro slash
    obtain ⟨init, ends⟩ := endsWith_slash_iff.mp slash
    rw [ends, ← List.append_assoc] at split
    exact last _ split
  have trimmed : rstripSlash (path.dropWhile isSpace ++ ['/']) = path.dropWhile isSpace :=
    (rdropWhile_concat_blank isSlash _ (by simp)).trans plain
  rw [strip, trimBy, behind, ← rstrip, rstrip_slash, trimmed] at shape
  rw [shape]
  exact split

/-- A directory that is opened by the path it is deleted by has no `%` in that path. -/
theorem percent_free {path opened root : Str} (last : ∀ init, path ≠ init ++ ['/'])
    (live : root ≠ []) (deleted : sanitizePath (path ++ ['/']) = .ok root)
    (read : decodePath path = some opened) (listed : sanitizePath opened = .ok root) :
    '%' ∉ path := by
  obtain ⟨leading, rfl, blank⟩ := deleted_shape last deleted
  have noPercent : '%' ∉ leading := fun member => by
    have space := blank _ member
    revert space
    decide
  obtain ⟨rest, rfl, shorter⟩ := decodePath_behind noPercent read
  intro member
  have less := shorter ((List.mem_append.mp member).resolve_left noPercent)
  have shown : leading ++ rest ≠ [] := by
    rintro empty
    rw [empty, sanitizePath_nil] at listed
    exact live (Except.ok.inj listed).symm
  obtain ⟨-, -, shape, -⟩ := (sanitizePath_eq_ok_iff shown).mp listed
  have stripped : strip (leading ++ rest) = strip rest := by
    rw [strip, trimBy, dropWhile_blank_append isSpace rest blank]
    rfl
  have inside : root <:+: rest := by
    rw [shape, stripped]
    exact (List.rdropWhile_prefix isSlash _).isInfix.trans
      ((List.rdropWhile_prefix isSpace _).isInfix.trans (List.dropWhile_suffix isSpace).isInfix)
  obtain ⟨front, back, rfl⟩ := inside
  simp only [utf8Encode_append, List.length_append] at less
  omega

theorem directory_actsOn_iff {rest : Str} (settled : screen.Settled)
    (opened : Opened screen.pathFromUrl base)
    (visible : rstripSlash rest ≠ []) (slash : endsWith rest ['/'] = true)
    (sorted : ∀ directory ∈ screen.directories, directory.isDirectory = true)
    (plain : ∀ file ∈ screen.files, file.isDirectory = false)
    (member : ∃ directory ∈ screen.directories, directory.name = rstripSlash rest) :
    ActsOn router roleId bucketName screen (.directory (rstripSlash rest)) (base ++ rest) ↔
      EntryKept screen (.directory (rstripSlash rest)) (base ++ rest) := by
  have trimmed : rstripSlash (rstripSlash rest) = rstripSlash rest :=
    List.rdropWhile_idempotent isSlash rest
  have wants : endsWith (rstrip (screen.fullPath (rstripSlash rest) ++ ['/'])) ['/'] = true := by
    rw [rstrip_slash, endsWith_concat_slash]
  have live : base ++ rstripSlash rest ≠ [] := name_visible visible
  have reads : router.pathFromUrl
      (navigateToFolder roleId bucketName screen.pathFromUrl (rstripSlash rest)) =
        decodePath (screen.fullPath (rstripSlash rest)) := reads_encoded
  simp only [ActsOn, FileEntry.directory, if_true, handed_list_iff, handed_delete_iff,
    deletePath_eq sorted plain, if_pos member, wants, reads]
  constructor
  · intro acts
    obtain ⟨⟨path, read, listed, sent, form⟩, deleted, removed, -, form'⟩ := acts
    obtain ⟨single, rfl⟩ := bare_path visible form'.symm (sanitizePath_last removed)
    have sameListed : listed = base ++ rstripSlash rest := by
      unfold folderPrefix at form
      split at form
      · have live := congrArg List.length form
        rw [single, List.length_append, List.length_append, List.length_singleton] at live
        simp at live
      · exact (bare_path visible form (sanitizePath_last sent)).2
    subst sameListed
    have last : ∀ init, screen.fullPath (rstripSlash rest) ≠ init ++ ['/'] := joinPath_last _ _
    have percent := percent_free last live removed read sent
    rw [decodePath_self_iff.mpr percent] at read
    obtain rfl := Option.some.inj read
    exact ⟨settled, kept_of_directory opened visible trimmed sent removed, by simp,
      fun _ => (oneSlash_iff visible slash).mpr single,
      fun _ => not_or.mp fun inside => percent (percent_joinPath.mpr inside)⟩
  · intro kept
    have single := (oneSlash_iff visible slash).mp (kept.oneSlash rfl)
    obtain ⟨sent, removed, -⟩ := join_kept opened visible kept.name
    have whole : base ++ rest = base ++ rstripSlash rest ++ ['/'] := by
      rw [List.append_assoc, ← single]
    have percent : '%' ∉ screen.fullPath (rstripSlash rest) := fun inside =>
      (percent_joinPath.mp inside).elim (kept.percent rfl).1 (kept.percent rfl).2
    refine ⟨⟨_, decodePath_self_iff.mpr percent, _, sent, ?_⟩, _, removed, live, whole⟩
    rw [folderPrefix, if_neg (by simpa using live), whole]

/-- A path that waits for its replacement leads to none of the keys that are shown. -/
theorem unsettled_misses (root : screen.pathFromUrl = []) (long : 2 ≤ base.length)
    (sorted : ∀ directory ∈ screen.directories, directory.isDirectory = true)
    (plain : ∀ file ∈ screen.files, file.isDirectory = false)
    (stands : ShownFor base entry key) :
    ¬ ActsOn router roleId bucketName screen entry key := by
  have below (name : Str) : (screen.fullPath name).length ≤ name.length := by
    rw [Screen.fullPath, root, joinPath_two, stripSlash_nil, if_pos rfl]
    exact trimBy_length_le isSlash name
  intro acts
  cases stands with
  | @file name _ _ visible =>
      simp only [ActsOn, Bool.false_eq_true, if_false, handed_key_iff (.inl rfl)] at acts
      have kept := sanitizePath_length acts.1
      have short := below name
      rw [List.length_append] at kept
      omega
  | @directory rest visible slash =>
      simp only [ActsOn, FileEntry.directory, if_true, handed_delete_iff] at acts
      obtain ⟨-, sanitized, accepted, -, form⟩ := acts
      have sent : (screen.deletePath (rstripSlash rest)).length ≤ (rstripSlash rest).length + 1 := by
        have short := below (rstripSlash rest)
        rw [deletePath_eq sorted plain]
        split_ifs
        · rw [List.length_append, List.length_singleton]
          omega
        · omega
      have named : (rstripSlash rest).length + 1 ≤ rest.length := by
        obtain ⟨init, ends⟩ := endsWith_slash_iff.mp slash
        have removed : rstripSlash rest = rstripSlash init := by
          rw [ends]
          exact rdropWhile_concat_blank isSlash init (by simp)
        have short := rstripSlash_length_le init
        rw [removed, ends, List.length_append, List.length_singleton]
        omega
      have kept := sanitizePath_length accepted
      have whole := congrArg List.length form
      split_ifs at whole <;>
        · simp only [List.length_append, List.length_singleton] at whole
          omega

/-- Nobody is given the prefix of a directory in a signed link. -/
theorem bulk_copies_file (stands : ShownFor base entry key) (copies : BulkCopies screen entry key) :
    entry.isDirectory = false := by
  cases stands with
  | file visible => rfl
  | @directory rest visible slash =>
      obtain ⟨init, ends⟩ := endsWith_slash_iff.mp slash
      have accepted := (handed_key_iff (.inr (.inl rfl))).mp copies
      rw [ends, ← List.append_assoc] at accepted
      exact absurd rfl (sanitizePath_last accepted (base ++ init))

end Entries

section Listing

variable {unicode : Unicode} {config : Dict} {role : Option Str} {user : UserDict}
  {bucket bucketName path base : Str} {store : Store} {params : ListParams} {page : ListPage}

/-- S3 holds what a shown entry stands for. -/
def Present (store : Store) (bucket : Str) (entry : FileEntry) (key : Str) : Prop :=
  if entry.isDirectory then
    ∃ below stored, key <+: below ∧ store.get? bucket below = some stored
  else ∃ stored, store.get? bucket key = some stored

theorem pageFiles_shown (under : base <+: params.searchPrefix)
    (valid : FromStore store (.listObjectsV2 params) page) :
    ∀ entry ∈ pageFiles base page, entry.isDirectory = false ∧
      ∃ key, ShownFor base entry key ∧ Present store params.bucket entry key := by
  intro entry member
  obtain ⟨object, contained, shown⟩ := List.mem_filterMap.mp member
  obtain ⟨below, present⟩ := object_line (valid.1 object contained)
  obtain ⟨name, whole⟩ := under.trans below
  split at shown
  · cases shown
  · have named : dropBase base object.key = name := by rw [dropBase, ← whole, List.drop_left]
    simp only [named] at shown
    split at shown
    · cases shown
    · next visible =>
        obtain rfl := Option.some.inj shown
        refine ⟨rfl, base ++ name, .file (by simpa using visible), ?_⟩
        rw [whole]
        exact present

theorem pageDirectories_shown (slash : params.delimiter = some ['/'])
    (under : base <+: params.searchPrefix)
    (valid : FromStore store (.listObjectsV2 params) page) :
    ∀ entry ∈ pageDirectories base page, entry.isDirectory = true ∧
      ∃ key, ShownFor base entry key ∧ Present store params.bucket entry key := by
  intro entry member
  obtain ⟨commonPrefix, contained, shown⟩ := List.mem_filterMap.mp member
  obtain ⟨below, ends, present⟩ := group_line slash (valid.2 commonPrefix contained)
  obtain ⟨rest, whole⟩ := under.trans below
  have named : directoryName base commonPrefix = rstripSlash rest := by
    rw [directoryName, dropBase, ← whole, List.drop_left]
  simp only [named] at shown
  split at shown
  · cases shown
  · next visible =>
      obtain rfl := Option.some.inj shown
      have live : rstripSlash rest ≠ [] := by simpa using visible
      have restEnds : endsWith rest ['/'] = true := by
        cases rest using List.reverseRecOn with
        | nil => exact absurd rfl live
        | append_singleton init last =>
            rw [← whole, ← List.append_assoc] at ends
            obtain ⟨front, shape⟩ := endsWith_slash_iff.mp ends
            rw [(List.append_inj' shape rfl).2]
            exact endsWith_concat_slash init
      refine ⟨rfl, base ++ rest, .directory live restEnds, ?_⟩
      rw [whole]
      exact present

theorem virtual_shown {prefixes : List Json} {name : Str} (member : name ∈ prefixNorms prefixes) :
    ShownFor [] (.directory name) (name ++ ['/']) := by
  obtain ⟨entry, -, shown⟩ := List.mem_filterMap.mp member
  cases entry with
  | str raw =>
      simp only at shown
      split at shown
      · cases shown
      · next live =>
          obtain rfl := Option.some.inj shown
          have plain : rstripSlash (prefixAsListPath raw ++ ['/']) = prefixAsListPath raw := by
            refine (rdropWhile_concat_blank isSlash _ (by simp)).trans ?_
            exact rdropWhile_eq_self_of_last isSlash fun _ _ split => trimBy_last_not isSlash split
          have shown := @ShownFor.directory [] (prefixAsListPath raw ++ ['/'])
            (by rw [plain]; simpa using live) (endsWith_concat_slash _)
          rwa [plain] at shown
  | null | bool | int | float | arr | obj => simp at shown

theorem prefixNorms_live {prefixes : List Json} {name : Str} (member : name ∈ prefixNorms prefixes) :
    name ≠ [] := by
  obtain ⟨entry, -, shown⟩ := List.mem_filterMap.mp member
  cases entry with
  | str raw =>
      simp only at shown
      split at shown
      · cases shown
      · next live =>
          obtain rfl := Option.some.inj shown
          simpa using live
  | null | bool | int | float | arr | obj => simp at shown

/-- What is listed for an empty path: the bucket root, the folders of several
prefixes, or a single prefix. -/
theorem prepareListPath_empty {listing : ListEntry}
    (prepared : prepareListPath unicode config role bucket user [] = .ok listing) :
    (listing.effectivePath = [] ∧ ∀ directories, listing.virtualDirectories = some directories →
        ∀ entry ∈ directories, ∃ name, entry = .directory name ∧
          ShownFor [] entry (name ++ ['/'])) ∨
      listing.effectivePath ≠ [] ∧ listing.virtualDirectories = none := by
  obtain ⟨validated, checked, rest⟩ := bind_eq_ok_iff.mp prepared
  obtain ⟨found, searched, rest⟩ := bind_eq_ok_iff.mp rest
  cases found with
  | none =>
      obtain rfl := Except.ok.inj rest
      exact .inl ⟨rfl, by simp⟩
  | some entry =>
      obtain ⟨allowed, -, rest⟩ := bind_eq_ok_iff.mp rest
      obtain ⟨_, -, rest⟩ := bind_eq_ok_iff.mp rest
      obtain ⟨granted, read, rest⟩ := bind_eq_ok_iff.mp rest
      cases granted with
      | none =>
          obtain rfl := Except.ok.inj rest
          exact .inl ⟨rfl, by simp⟩
      | some prefixes =>
          simp only [List.isEmpty_nil, if_true] at rest
          split at rest
          · obtain ⟨_, -, rest⟩ := bind_eq_ok_iff.mp rest
            simp [raise] at rest
          · next effective single =>
              obtain ⟨again, accepted, rest⟩ := bind_eq_ok_iff.mp rest
              obtain rfl := Except.ok.inj rest
              exact .inr ⟨prefixNorms_live (single ▸ List.mem_singleton_self effective), rfl⟩
          · obtain rfl := Except.ok.inj rest
            refine .inl ⟨rfl, fun directories virtual entry member => ?_⟩
            obtain rfl := Option.some.inj virtual
            obtain ⟨name, sorted, rfl⟩ := List.mem_map.mp member
            have granted : name ∈ prefixNorms prefixes :=
              List.mem_dedup.mp (List.mem_mergeSort.mp sorted)
            exact ⟨name, rfl, virtual_shown granted⟩

/-- A chunk as the list route answers it: its entries stand for keys under the prefix
that was listed, in S3 or as folders of the role. -/
structure ChunkShown (unicode : Unicode) (config : Dict) (role : Option Str) (user : UserDict)
    (target : Str × Str) (store : Store) (chunk : ClientLoad) : Prop where
  listed : ∃ listing, prepareListPath unicode config role target.1 user target.2 = .ok listing ∧
    chunk.path = listing.effectivePath ∧
    ∀ entry ∈ chunk.directories ++ chunk.files, ∃ key,
      ShownFor (folderPrefix chunk.path) entry key ∧
        (listing.virtualDirectories = none → Present store target.1 entry key)
  directories : ∀ entry ∈ chunk.directories, entry.isDirectory = true
  files : ∀ entry ∈ chunk.files, entry.isDirectory = false

def ListsOnly (request : S3Request) : Prop :=
  ∃ params, request = .listObjectsV2 params

theorem clientLoad_shown {target : Str × Str} {maxClientLoad : Int} {token : Option Str}
    {namePrefix : Str} :
    (listObjectsClientLoadForRole unicode config role target.1 target.2 user maxClientLoad token
        namePrefix).Sends ListsOnly (FromStore store)
      (ChunkShown unicode config role user target store) := by
  refine sends_ofResult_bind fun listing prepared => ?_
  have virtualEmpty (directories : List FileEntry)
      (virtual : listing.virtualDirectories = some directories) :
      listing.effectivePath = [] ∧ ∀ entry ∈ directories, ∃ name, entry = .directory name ∧
        ShownFor [] entry (name ++ ['/']) := by
    by_cases named : target.2 = []
    · rw [named] at prepared
      obtain ⟨empty, shown⟩ | ⟨-, real⟩ := prepareListPath_empty prepared
      · exact ⟨empty, shown directories virtual⟩
      · rw [real] at virtual
        cases virtual
    · rw [(prepareListPath_named named prepared).2] at virtual
      cases virtual
  cases real : listing.virtualDirectories with
  | some directories =>
      obtain ⟨empty, shown⟩ := virtualEmpty directories real
      refine (sends_ok _ _).mpr ⟨⟨listing, prepared, rfl, fun entry member => ?_⟩,
        fun entry member => ?_, by simp⟩
      · obtain ⟨name, -, stands⟩ := shown entry (by simpa using member)
        exact ⟨name ++ ['/'], by simpa [empty, folderPrefix] using stands, by simp [real]⟩
      · obtain ⟨name, rfl, -⟩ := shown entry member
        rfl
  | none =>
      refine executeWithS3Retry_sends_iff.mpr ((sends_bind _ _ _).mpr ?_)
      let base := folderPrefix listing.effectivePath
      let stands (directory : Bool) (entry : FileEntry) : Prop :=
        entry.isDirectory = directory ∧
          ∃ key, ShownFor base entry key ∧ Present store target.1 entry key
      have chunk := @clientLoadPages_sends ListsOnly (FromStore store) (stands true) (stands false)
        target.1 base (base ++ namePrefix) (max 1 (min maxClientLoad 200000)).toNat
        (fun _ _ => ⟨_, rfl⟩)
        (fun _ _ page valid => ⟨pageDirectories_shown rfl (List.prefix_append ..) valid,
          pageFiles_shown (List.prefix_append ..) valid⟩)
        ((max 1 (min maxClientLoad 200000)).toNat / 1000 + 8) token [] [] (by simp)
      refine sends_mono chunk fun found shown => (sends_ok _ _).mpr ?_
      refine ⟨⟨listing, prepared, rfl, fun entry member => ?_⟩, fun entry member => ?_,
        fun entry member => ?_⟩
      · obtain inDirectories | inFiles := List.mem_append.mp member
        · obtain ⟨-, key, stands, present⟩ := shown.1 entry (List.mem_mergeSort.mp inDirectories)
          exact ⟨key, stands, fun _ => present⟩
        · obtain ⟨-, key, stands, present⟩ := shown.2 entry (List.mem_mergeSort.mp inFiles)
          exact ⟨key, stands, fun _ => present⟩
      · exact (shown.1 entry (List.mem_mergeSort.mp member)).1
      · exact (shown.2 entry (List.mem_mergeSort.mp member)).1

theorem listFiles_shown {pages : Nat} {query : Web.ListQuery} (load : query.clientLoad = true) :
    (Web.listFiles unicode config pages role bucketName path user query).Sends ListsOnly
      (FromStore store) fun answer => ∀ chunk, answer = .clientLoad chunk →
        ∃ target, Web.sanitizeTarget unicode bucketName path = .ok target ∧
          ChunkShown unicode config role user target store chunk := by
  refine sends_ofResult_bind fun target sanitized => sends_ofResult_bind fun search _ => ?_
  simp only [load, if_true]
  refine sends_ofResult_bind fun size _ => (sends_bind _ _ _).mpr ?_
  refine sends_mono clientLoad_shown fun found shown => (sends_ok _ _).mpr ?_
  intro chunk same
  obtain rfl := Web.ListAnswer.clientLoad.inj same
  exact ⟨target, sanitized, shown⟩

end Listing

section Screens

variable {unicode : Unicode} {config : Dict} {role : Option Str} {user : UserDict}
  {bucketName : Str}

/-- Every chunk on the screen came from the list route, at a time of its own. -/
def Loaded (unicode : Unicode) (config : Dict) (role : Option Str) (user : UserDict)
    (bucketName : Str) (screen : Screen) : Prop :=
  ∀ chunk ∈ screen.pages, ∃ conventions pages query world after,
    query.clientLoad = true ∧
      (Web.listFiles unicode config pages role bucketName screen.pathFromUrl user query).run
        conventions world = (.ok (.clientLoad chunk), after)

theorem loaded_shown {screen : Screen}
    (loaded : Loaded unicode config role user bucketName screen) {chunk : ClientLoad}
    (member : chunk ∈ screen.pages) :
    ∃ target store, Web.sanitizeTarget unicode bucketName screen.pathFromUrl = .ok target ∧
      ChunkShown unicode config role user target store chunk := by
  obtain ⟨conventions, pages, query, world, after, load, ran⟩ := loaded chunk member
  have sends := @listFiles_shown unicode config role user bucketName screen.pathFromUrl world.store
    pages query load
  obtain ⟨found, -⟩ := run_of_sends sends (fun _ => id) ran
  obtain ⟨target, sanitized, shown⟩ := found chunk rfl
  exact ⟨target, world.store, sanitized, shown⟩

/-- The page is at a folder that its chunks were listed for, or its empty path stands for
another one. -/
theorem loaded_opened {screen : Screen}
    (loaded : Loaded unicode config role user bucketName screen) {chunk : ClientLoad}
    (member : chunk ∈ screen.pages) :
    screen.Settled ∧ Opened screen.pathFromUrl (folderPrefix chunk.path) ∨
      ¬ screen.Settled ∧ screen.pathFromUrl = [] ∧ 2 ≤ (folderPrefix chunk.path).length := by
  obtain ⟨target, store, sanitized, shown⟩ := loaded_shown loaded member
  obtain ⟨listing, prepared, same, -⟩ := shown.listed
  have accepted := sanitizeTarget_path sanitized
  by_cases empty : screen.pathFromUrl = []
  · -- The first chunk was listed for the same effective path.
    have first : screen.folder = listing.effectivePath := by
      cases pages : screen.pages with
      | nil => simp [pages] at member
      | cons head rest =>
          obtain ⟨target', store', sanitized', shown'⟩ :=
            loaded_shown loaded (pages ▸ List.mem_cons_self : head ∈ screen.pages)
          obtain ⟨listing', prepared', same', -⟩ := shown'.listed
          rw [sanitized] at sanitized'
          obtain rfl := Except.ok.inj sanitized'
          rw [prepared] at prepared'
          obtain rfl := Except.ok.inj prepared'
          simp [Screen.folder, empty, pages, same']
    rw [empty, sanitizePath_nil] at accepted
    rw [← Except.ok.inj accepted] at prepared
    rw [Screen.Settled, first, empty, same]
    obtain ⟨root, -⟩ | ⟨live, -⟩ := prepareListPath_empty prepared
    · rw [root]
      exact .inl ⟨rfl, .root⟩
    · have some := List.length_pos_iff.mpr live
      rw [folderPrefix, if_neg (by simpa using live), List.length_append, List.length_singleton]
      exact .inr ⟨live, rfl, by omega⟩
  · refine .inl ⟨settled_of_named empty, ?_⟩
    by_cases blank : target.2 = []
    · rw [blank] at accepted
      exact .blank empty accepted
    · rw [same, (prepareListPath_named blank prepared).1, folderPrefix,
        if_neg (by simpa using blank)]
      exact .inside empty blank accepted

theorem loaded_sorted {screen : Screen}
    (loaded : Loaded unicode config role user bucketName screen) :
    (∀ directory ∈ screen.directories, directory.isDirectory = true) ∧
      ∀ file ∈ screen.files, file.isDirectory = false := by
  constructor
  · intro directory member
    obtain ⟨chunk, onScreen, inside⟩ := List.mem_flatMap.mp (mem_distinctNames member)
    obtain ⟨target, store, -, shown⟩ := loaded_shown loaded onScreen
    exact shown.directories directory inside
  · intro file member
    obtain ⟨chunk, onScreen, inside⟩ := List.mem_flatMap.mp member
    obtain ⟨target, store, -, shown⟩ := loaded_shown loaded onScreen
    exact shown.files file inside

/-- A bucket with one object, whose key ends in a blank. -/
def blankStore : Store where
  bucketNames := [lit "data"]
  objects _ := OrderedMap.empty.insert (lit "report.txt ") ⟨[1], none, []⟩
  now := []

def adminUser : UserDict where
  isAdmin := true
  allowedRoles := []
  defaultRole := none

/-- The root of that bucket, as the browser shows it to an administrator. -/
def blankScreen : Screen where
  pathFromUrl := []
  pages := [⟨[], [⟨lit "report.txt ", false, 1, some []⟩], false, none, []⟩]

def firstChunk : Web.ListQuery where
  maxKeys := some 1
  continuationToken := none
  clientLoad := true
  search := none

theorem blankScreen_loaded : Loaded Unicode.ascii [] none adminUser (lit "data") blankScreen := by
  intro chunk member
  obtain rfl := List.mem_singleton.mp member
  refine ⟨Conventions.plain, 0, firstChunk, calm blankStore, calm blankStore, rfl, ?_⟩
  have ran : (Web.listFiles Unicode.ascii [] 0 none (lit "data") [] adminUser firstChunk).run
      Conventions.plain (calm blankStore) =
        (.ok (.clientLoad ⟨sortByName Unicode.ascii [],
          sortByName Unicode.ascii [⟨lit "report.txt ", false, 1, some []⟩], false, none, []⟩),
          calm blankStore) := rfl
  simpa [sortByName, blankScreen] using ran

end Screens

end S3Manager.Doors
