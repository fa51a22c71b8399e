import S3Manager.Library.Segments
import S3Manager.Ui.JoinedPaths

/-! Opening one directory after the other, over the keys of a bucket: which objects
are found that way, and in how many folders. -/

set_option autoImplicit false

namespace S3Manager.Ui

open Python Utils Storage Library

section Names

/-- A folder path made of names. -/
abbrev joinNames (names : List Str) : Str :=
  joinOn '/' names

def folderNames (key : Str) : List Str :=
  (key.splitOn '/').dropLast

def fileName (key : Str) : Str :=
  (key.splitOn '/').getLast (List.splitOn_ne_nil '/' key)

/-- What `strip` leaves of the first name of a path. -/
def trimHead : List Str → List Str
  | [] => []
  | first :: rest => lstrip first :: rest

/-- What `strip` and then `strip("/")` leave of the last name of a path. -/
def trimLast : List Str → List Str
  | [] => []
  | [last] => if (rstrip last).isEmpty then [] else [rstrip last]
  | name :: next :: rest => name :: trimLast (next :: rest)

/-- The names of the folder that a path of names is sanitized to. -/
def trimNames (names : List Str) : List Str :=
  trimLast (trimHead names)

/-- Names that `sanitize_path` accepts inside a path. -/
structure CleanNames (names : List Str) : Prop where
  named : ∀ name ∈ names, name ≠ []
  dotless : ∀ name ∈ names, ¬ ['.', '.'] <:+: name
  printable : ∀ name ∈ names, ∀ c ∈ name, isControl c = false

variable {names front rest : List Str} {name last root key file : Str}

theorem key_split (key : Str) : key.splitOn '/' = folderNames key ++ [fileName key] :=
  (List.dropLast_append_getLast (List.splitOn_ne_nil '/' key)).symm

theorem joinNames_key (key : Str) : joinNames (folderNames key ++ [fileName key]) = key := by
  rw [← key_split]
  exact joinOn_splitOn key

theorem folderPrefix_join (segments : Segments '/' names) (name : Str) :
    folderPrefix (joinNames names) ++ name = joinNames (names ++ [name]) := by
  by_cases empty : names = []
  · simp [empty, folderPrefix]
  · have live : joinNames names ≠ [] := fun none => empty ((joinOn_eq_nil_iff segments).mp none)
    rw [folderPrefix, if_neg (by simpa using live)]
    change _ = joinOn '/' (names ++ [name])
    rw [joinOn_snoc empty, List.append_assoc]
    rfl

theorem names_of_key (segments : Segments '/' names) (plain : '/' ∉ file)
    (same : key = folderPrefix (joinNames names) ++ file) :
    folderNames key = names ∧ fileName key = file := by
  rw [folderPrefix_join segments] at same
  have split : key.splitOn '/' = names ++ [file] := by
    rw [same]
    refine splitOn_joinOn ?_ (by simp)
    intro name member
    obtain among | only := List.mem_append.mp member
    · exact (segments name among).2
    · rw [List.mem_singleton.mp only]
      exact plain
  obtain ⟨folder, last⟩ := List.append_inj' ((key_split key).symm.trans split) rfl
  exact ⟨folder, (List.cons.inj last).1⟩

theorem dotless_join : (∀ name ∈ names, ¬ ['.', '.'] <:+: name) ↔
    ¬ ['.', '.'] <:+: joinNames names := by
  induction names with
  | nil => simp
  | cons first rest ih =>
      cases rest with
      | nil => simp
      | cons second more =>
          change _ ↔ ¬ ['.', '.'] <:+: joinOn '/' (first :: second :: more)
          rw [joinOn_cons first (by simp), dots_infix_iff, not_or, List.forall_mem_cons, ih]

end Names

section Trim

variable {names front rest : List Str} {name last root : Str}

theorem lstrip_slash (front back : Str) : lstrip (front ++ '/' :: back) = lstrip front ++ '/' :: back := by
  unfold lstrip
  rw [List.dropWhile_append]
  split
  · next blank =>
      rw [List.isEmpty_iff.mp blank, List.nil_append]
      exact List.dropWhile_cons_of_neg (by simp [isSpace_slash])
  · rfl

theorem lstrip_join (names : List Str) : lstrip (joinNames names) = joinNames (trimHead names) := by
  cases names with
  | nil => rfl
  | cons first rest =>
      cases rest with
      | nil => simp [joinNames, trimHead]
      | cons second more =>
          change lstrip (joinOn '/' (first :: second :: more)) =
            joinOn '/' (lstrip first :: second :: more)
          rw [joinOn_cons first (by simp), joinOn_cons (lstrip first) (by simp), lstrip_slash]

theorem rstrip_join (front : List Str) (last : Str) :
    rstrip (joinNames (front ++ [last])) = joinNames (front ++ [rstrip last]) := by
  by_cases some : front = []
  · simp [joinNames, some]
  · change rstrip (joinOn '/' (front ++ [last])) = joinOn '/' (front ++ [rstrip last])
    rw [joinOn_snoc some, joinOn_snoc some, rstrip_append_slash]

theorem trimLast_snoc (front : List Str) (last : Str) :
    trimLast (front ++ [last]) =
      if (rstrip last).isEmpty then front else front ++ [rstrip last] := by
  induction front with
  | nil => rfl
  | cons name rest ih =>
      cases rest with
      | nil =>
          change name :: trimLast [last] = _
          rw [trimLast]
          split <;> rfl
      | cons second more =>
          change name :: trimLast (second :: more ++ [last]) = _
          rw [ih]
          split <;> rfl

theorem rstripSlash_of_plain (plain : '/' ∉ name) : rstripSlash name = name := by
  refine rstripSlash_eq_self ?_
  rw [← Bool.not_eq_true, endsWith_slash_iff]
  intro ends
  obtain ⟨init, rfl⟩ := ends
  exact plain (by simp)

theorem rstripSlash_join (segments : Segments '/' names) :
    rstripSlash (joinNames names) = joinNames names := by
  cases names using List.reverseRecOn with
  | nil => rfl
  | append_singleton front last =>
      obtain ⟨live, plain⟩ := segments last (by simp)
      by_cases some : front = []
      · simpa [joinNames, some] using rstripSlash_of_plain plain
      · have shape : joinNames (front ++ [last]) = (joinNames front ++ ['/']) ++ last := by
          change joinOn '/' (front ++ [last]) = _
          rw [joinOn_snoc some, List.append_assoc]
          rfl
        rw [shape]
        exact key_plain _ live (rstripSlash_of_plain plain)

theorem not_slash_start (live : name ≠ []) (plain : '/' ∉ name) (back : Str) :
    ∀ rest, name ++ back ≠ '/' :: rest := by
  intro rest same
  cases name with
  | nil => exact live rfl
  | cons c tail =>
      obtain rfl := (List.cons.inj same).1
      exact plain List.mem_cons_self

theorem lstrip_subset {c : Char} (member : c ∈ lstrip name) : c ∈ name :=
  (List.dropWhile_sublist isSpace).subset member

theorem rstrip_subset {c : Char} (member : c ∈ rstrip name) : c ∈ name :=
  (List.rdropWhile_prefix isSpace name).subset member

theorem sanitize_one (live : name ≠ []) (plain : '/' ∉ name) :
    sanitizePath name = .ok root ↔
      root = joinNames (trimNames [name]) ∧ CleanNames (trimNames [name]) := by
  have stripped : strip name = rstrip (lstrip name) := rfl
  have slashless : '/' ∉ rstrip (lstrip name) := fun found =>
    plain (lstrip_subset (rstrip_subset found))
  have relative : ∀ rest, rstrip (lstrip name) ≠ '/' :: rest := by
    intro rest same
    exact slashless (by simp [same])
  rw [sanitizePath_eq_ok_iff live, stripped, rstripSlash_of_plain slashless]
  change _ ↔ root = joinOn '/' (trimLast [lstrip name]) ∧ CleanNames (trimLast [lstrip name])
  rw [trimLast]
  split
  · next blank =>
      rw [List.isEmpty_iff.mp blank, joinOn_nil]
      constructor
      · intro accepted
        exact ⟨accepted.2.2.1, by constructor <;> simp⟩
      · intro trimmed
        simp [trimmed.1]
  · next kept =>
      rw [joinOn_one]
      constructor
      · intro accepted
        obtain ⟨dotless, -, rfl, printable⟩ := accepted
        refine ⟨rfl, ⟨?_, ?_, ?_⟩⟩
        · simpa using kept
        · simpa using dotless
        · simpa using printable
      · intro trimmed
        obtain ⟨rfl, clean⟩ := trimmed
        exact ⟨clean.dotless _ List.mem_cons_self, relative, rfl,
          clean.printable _ List.mem_cons_self⟩

theorem sanitize_more {first : Str} {more : List Str}
    (segments : Segments '/' (first :: more ++ [last])) :
    sanitizePath (joinNames (first :: more ++ [last])) = .ok root ↔
      root = joinNames (trimNames (first :: more ++ [last])) ∧
        CleanNames (trimNames (first :: more ++ [last])) := by
  have nonempty : joinNames (first :: more ++ [last]) ≠ [] := fun none =>
    absurd ((joinOn_eq_nil_iff segments).mp none) (by simp)
  have stripped : strip (joinNames (first :: more ++ [last])) =
      joinNames (lstrip first :: more ++ [rstrip last]) := by
    change rstrip (lstrip _) = _
    rw [lstrip_join]
    exact rstrip_join (lstrip first :: more) last
  have trimmed : trimNames (first :: more ++ [last]) =
      if (rstrip last).isEmpty then lstrip first :: more
      else lstrip first :: more ++ [rstrip last] := trimLast_snoc (lstrip first :: more) last
  have shape : joinNames (lstrip first :: more ++ [rstrip last]) =
      joinNames (lstrip first :: more) ++ '/' :: rstrip last := by
    change joinOn '/' (lstrip first :: more ++ [rstrip last]) = _
    exact joinOn_snoc (by simp) _
  rw [sanitizePath_eq_ok_iff nonempty, stripped]
  by_cases absolute : lstrip first = []
  · -- The path is blanks and a slash in front: it is refused, and its first name is empty.
    have slash : ∃ rest, joinNames (lstrip first :: more ++ [rstrip last]) = '/' :: rest := by
      rw [absolute]
      exact ⟨_, joinOn_cons [] (by simp)⟩
    have unnamed : ¬ CleanNames (trimNames (first :: more ++ [last])) := by
      intro clean
      refine clean.named [] ?_ rfl
      rw [trimmed, absolute]
      split <;> simp
    obtain ⟨rest, starts⟩ := slash
    exact ⟨fun accepted => absurd starts (accepted.2.1 rest), fun claim => absurd claim.2 unnamed⟩
  · have plain : '/' ∉ lstrip first := fun found =>
      (segments first (by simp)).2 (lstrip_subset found)
    have frontSegments : Segments '/' (lstrip first :: more) := by
      intro name member
      obtain rfl | among := List.mem_cons.mp member
      · exact ⟨absolute, plain⟩
      · exact segments name (by simp [among])
    have relative : ∀ rest, joinNames (lstrip first :: more ++ [rstrip last]) ≠ '/' :: rest := by
      change ∀ rest, joinOn '/' (lstrip first :: (more ++ [rstrip last])) ≠ '/' :: rest
      rw [joinOn_cons (lstrip first) (by simp)]
      exact not_slash_start absolute plain _
    by_cases blank : rstrip last = []
    · rw [if_pos (by simp [blank])] at trimmed
      have slashed : joinNames (lstrip first :: more ++ [rstrip last]) =
          joinNames (lstrip first :: more) ++ ['/'] := by rw [shape, blank]
      have root_ : rstripSlash (joinNames (lstrip first :: more) ++ ['/']) =
          joinNames (lstrip first :: more) :=
        (rdropWhile_concat_blank isSlash _ (by simp)).trans (rstripSlash_join frontSegments)
      rw [trimmed]
      rw [slashed] at relative ⊢
      rw [root_, dots_infix_iff, not_or, ← dotless_join]
      constructor
      · intro accepted
        obtain ⟨⟨dotless, -⟩, -, rfl, printable⟩ := accepted
        refine ⟨rfl, fun name member => (frontSegments name member).1, dotless, ?_⟩
        intro name member c within
        exact printable c ((infix_joinOn member).subset within)
      · intro claim
        obtain ⟨rfl, clean⟩ := claim
        refine ⟨⟨clean.dotless, by simp⟩, relative, rfl, ?_⟩
        intro c member
        obtain rfl | ⟨name, among, within⟩ := mem_joinOn member
        · decide
        · exact clean.printable name among c within
    · rw [if_neg (by simpa using blank)] at trimmed
      have allSegments : Segments '/' (lstrip first :: more ++ [rstrip last]) := by
        intro name member
        obtain among | only := List.mem_append.mp member
        · exact frontSegments name among
        · rw [List.mem_singleton.mp only]
          exact ⟨blank, fun found => (segments last (by simp)).2 (rstrip_subset found)⟩
      rw [trimmed, rstripSlash_join allSegments, ← dotless_join]
      constructor
      · intro accepted
        obtain ⟨dotless, -, rfl, printable⟩ := accepted
        refine ⟨rfl, fun name member => (allSegments name member).1, dotless, ?_⟩
        intro name member c within
        exact printable c ((infix_joinOn member).subset within)
      · intro claim
        obtain ⟨rfl, clean⟩ := claim
        refine ⟨clean.dotless, relative, rfl, ?_⟩
        intro c member
        obtain rfl | ⟨name, among, within⟩ := mem_joinOn member
        · decide
        · exact clean.printable name among c within

theorem sanitize_names (segments : Segments '/' names) :
    sanitizePath (joinNames names) = .ok root ↔
      root = joinNames (trimNames names) ∧ CleanNames (trimNames names) := by
  cases names using List.reverseRecOn with
  | nil =>
      change sanitizePath [] = .ok root ↔ root = joinOn '/' [] ∧ CleanNames []
      rw [sanitizePath_nil, joinOn_nil]
      constructor
      · intro accepted
        exact ⟨(Except.ok.inj accepted).symm, by constructor <;> simp⟩
      · intro claim
        rw [claim.1]
  | append_singleton front last =>
      cases front with
      | nil =>
          obtain ⟨live, plain⟩ := segments last (by simp)
          change sanitizePath (joinOn '/' [last]) = .ok root ↔ _
          rw [joinOn_one]
          exact sanitize_one live plain
      | cons first more => exact sanitize_more segments

theorem CleanNames.trimLast (clean : CleanNames names) : CleanNames (trimLast names) := by
  cases names using List.reverseRecOn with
  | nil => exact clean
  | append_singleton front last =>
      rw [trimLast_snoc]
      have trimmed : rstrip last <:+: last := (List.rdropWhile_prefix isSpace last).isInfix
      split
      · exact ⟨fun name member => clean.named name (by simp [member]),
          fun name member => clean.dotless name (by simp [member]),
          fun name member => clean.printable name (by simp [member])⟩
      · next kept =>
          refine ⟨?_, ?_, ?_⟩
          · intro name member
            obtain among | only := List.mem_append.mp member
            · exact clean.named name (by simp [among])
            · rw [List.mem_singleton.mp only]
              simpa using kept
          · intro name member
            obtain among | only := List.mem_append.mp member
            · exact clean.dotless name (by simp [among])
            · rw [List.mem_singleton.mp only]
              exact fun dots => clean.dotless last (by simp) (dots.trans trimmed)
          · intro name member c within
            obtain among | only := List.mem_append.mp member
            · exact clean.printable name (by simp [among]) c within
            · rw [List.mem_singleton.mp only] at within
              exact clean.printable last (by simp) c (rstrip_subset within)

theorem trimHead_append (some : front ≠ []) (rest : List Str) :
    trimHead (front ++ rest) = trimHead front ++ rest := by
  cases front with
  | nil => exact absurd rfl some
  | cons first more => rfl

theorem trimLast_append (front : List Str) (some : rest ≠ []) :
    trimLast (front ++ rest) = front ++ trimLast rest := by
  induction front with
  | nil => rfl
  | cons name more ih =>
      cases tail : more ++ rest with
      | nil => exact absurd (List.append_eq_nil_iff.mp tail).2 some
      | cons next later =>
          rw [List.cons_append, tail, List.cons_append, ← ih, tail]
          rfl

theorem trimNames_append (someFront : front ≠ []) (someRest : rest ≠ []) :
    trimNames (front ++ rest) = trimHead front ++ trimLast rest := by
  unfold trimNames
  rw [trimHead_append someFront, trimLast_append _ someRest]

theorem clean_front (someRest : rest ≠ []) (clean : CleanNames (trimNames (front ++ rest))) :
    CleanNames (trimNames front) := by
  by_cases some : front = []
  · subst some
    exact ⟨by simp [trimNames, trimHead, trimLast], by simp [trimNames, trimHead, trimLast],
      by simp [trimNames, trimHead, trimLast]⟩
  · rw [trimNames_append some someRest] at clean
    exact CleanNames.trimLast ⟨fun name member => clean.named name (by simp [member]),
      fun name member => clean.dotless name (by simp [member]),
      fun name member => clean.printable name (by simp [member])⟩

end Trim

section Walk

variable (keys : Str → Prop)

/-- A directory that is listed under a root. -/
structure DirectoryAt (root name : Str) : Prop where
  named : name ≠ []
  plain : '/' ∉ name
  below : ∃ key, keys key ∧ folderPrefix root ++ name ++ ['/'] <+: key

/-- Names of directories, each opened in the listing of the path before it. -/
inductive Walk : List Str → Prop where
  | start : Walk []
  | open {names : List Str} {root name : Str} :
      Walk names → sanitizePath (joinNames names) = .ok root → DirectoryAt keys root name →
      Walk (names ++ [name])

/-- The object of this key is a file in the listing of this path. -/
structure FileAt (path key : Str) : Prop where
  listed : ∃ root file, sanitizePath path = .ok root ∧ file ≠ [] ∧ '/' ∉ file ∧
    key = folderPrefix root ++ file

/-- The folders in which an object is found by opening directories. -/
def FoundAt (path key : Str) : Prop :=
  (∃ names, Walk keys names ∧ path = joinNames names) ∧ FileAt path key

/-- A chain of directories: each is listed under what those before it are trimmed to. -/
def Chain (names : List Str) : Prop :=
  ∀ front name rest, names = front ++ name :: rest →
    DirectoryAt keys (joinNames (trimNames front)) name

variable {keys} {names front : List Str} {name key path : Str}

theorem Chain.segments (chain : Chain keys names) : Segments '/' names := by
  intro name member
  obtain ⟨front, rest, split⟩ := List.append_of_mem member
  have directory := chain front name rest split
  exact ⟨directory.named, directory.plain⟩

theorem Chain.snoc (chain : Chain keys names)
    (directory : DirectoryAt keys (joinNames (trimNames names)) name) :
    Chain keys (names ++ [name]) := by
  intro front other rest split
  cases rest using List.reverseRecOn with
  | nil =>
      obtain ⟨rfl, same⟩ := List.append_inj' split rfl
      obtain rfl := (List.cons.inj same).1
      exact directory
  | append_singleton more last =>
      have shape : names ++ [name] = (front ++ other :: more) ++ [last] := by simpa using split
      obtain ⟨rfl, _⟩ := List.append_inj' shape rfl
      exact chain front other more rfl

theorem Chain.begin {rest : List Str} (chain : Chain keys (front ++ rest)) : Chain keys front := by
  intro first name more split
  refine chain first name (more ++ rest) ?_
  rw [split]
  simp

theorem Walk.chain (walk : Walk keys names) : Chain keys names := by
  induction walk with
  | start =>
      intro front name rest split
      simp at split
  | «open» before sanitized directory ih =>
      obtain ⟨rfl, _⟩ := (sanitize_names ih.segments).mp sanitized
      exact ih.snoc directory

/-- A chain to clean names can be walked. -/
theorem Chain.walk (chain : Chain keys names) (clean : CleanNames (trimNames names)) :
    Walk keys names := by
  induction names using List.reverseRecOn with
  | nil => exact .start
  | append_singleton front last ih =>
      have cleanFront := clean_front (by simp) clean
      have sanitized := (sanitize_names chain.begin.segments).mpr ⟨rfl, cleanFront⟩
      exact .open (ih chain.begin cleanFront) sanitized (chain front last [] rfl)

theorem mem_trimLast {names : List Str} (member : name ∈ trimLast names) :
    ∃ whole ∈ names, ∀ c ∈ name, c ∈ whole := by
  cases names using List.reverseRecOn with
  | nil => cases member
  | append_singleton front last =>
      rw [trimLast_snoc] at member
      split at member
      · exact ⟨name, by simp [member], fun _ => id⟩
      · obtain among | only := List.mem_append.mp member
        · exact ⟨name, by simp [among], fun _ => id⟩
        · refine ⟨last, by simp, fun c within => ?_⟩
          rw [List.mem_singleton.mp only] at within
          exact rstrip_subset within

theorem mem_trimNames {names : List Str} (member : name ∈ trimNames names) :
    ∃ whole ∈ names, ∀ c ∈ name, c ∈ whole := by
  obtain ⟨whole, among, within⟩ := mem_trimLast member
  cases names with
  | nil => cases among
  | cons first rest =>
      obtain rfl | later := List.mem_cons.mp among
      · exact ⟨first, by simp, fun c inside => lstrip_subset (within c inside)⟩
      · exact ⟨whole, by simp [later], within⟩

theorem trimmed_segments (segments : Segments '/' names) (clean : CleanNames (trimNames names)) :
    Segments '/' (trimNames names) := by
  intro name member
  obtain ⟨whole, among, within⟩ := mem_trimNames member
  exact ⟨clean.named name member, fun found => (segments whole among).2 (within _ found)⟩

theorem folderNames_plain (member : name ∈ folderNames key) : '/' ∉ name :=
  not_mem_of_splitOn (List.mem_of_mem_dropLast member)

theorem fileName_plain (key : Str) : '/' ∉ fileName key :=
  not_mem_of_splitOn (List.getLast_mem _)

theorem CleanNames.segments (clean : CleanNames (folderNames key)) :
    Segments '/' (folderNames key) :=
  fun name member => ⟨clean.named name member, folderNames_plain member⟩

theorem foundAt_iff : FoundAt keys path key ↔
    fileName key ≠ [] ∧ CleanNames (folderNames key) ∧
      ∃ names, Chain keys names ∧ trimNames names = folderNames key ∧ path = joinNames names := by
  constructor
  · intro found
    obtain ⟨⟨names, walk, rfl⟩, ⟨root, file, sanitized, live, plain, same⟩⟩ := found
    have chain := walk.chain
    obtain ⟨rfl, clean⟩ := (sanitize_names chain.segments).mp sanitized
    obtain ⟨folder, rfl⟩ := names_of_key (trimmed_segments chain.segments clean) plain same
    exact ⟨live, folder ▸ clean, names, chain, folder.symm, rfl⟩
  · intro claim
    obtain ⟨live, clean, names, chain, trimmed, rfl⟩ := claim
    have cleanTrimmed : CleanNames (trimNames names) := trimmed ▸ clean
    refine ⟨⟨names, chain.walk cleanTrimmed, rfl⟩,
      ⟨joinNames (folderNames key), fileName key, ?_, live, fileName_plain key, ?_⟩⟩
    · exact (sanitize_names chain.segments).mpr ⟨by rw [trimmed], cleanTrimmed⟩
    · rw [folderPrefix_join clean.segments]
      exact (joinNames_key key).symm

end Walk

section Unique

variable {keys : Str → Prop} {names front rest folder : List Str} {name key : Str}

/-- Names that end in no blank. -/
def Tidy (names : List Str) : Prop :=
  ∀ name ∈ names, rstrip name = name

/-- What is left of a name in this place of a path: blanks go at the outer ends. -/
def seenAs (front rest : List Str) (name : Str) : Str :=
  let left := if front.isEmpty then lstrip name else name
  if rest.isEmpty then rstrip left else left

/-- No other directory on the way reads like one of these, and none of blanks lies in
the folder itself. -/
structure Alone (keys : Str → Prop) (folder : List Str) : Prop where
  twinless : ∀ front name rest, folder = front ++ name :: rest →
    ∀ other, DirectoryAt keys (joinNames front) other → seenAs front rest other = name →
      other = name
  inside : ∀ other, DirectoryAt keys (joinNames folder) other → rstrip other ≠ []

/-- A chain of directories that is trimmed to these names. -/
structure LeadsTo (keys : Str → Prop) (folder names : List Str) : Prop where
  chain : Chain keys names
  trimmed : trimNames names = folder

/-- The folder names of an object let it be found, in one folder only. When none of
them ends in a blank, they have to stand alone; else there has to be one detour. -/
structure Browsable (keys : Str → Prop) (key : Str) : Prop where
  named : fileName key ≠ []
  clean : CleanNames (folderNames key)
  left : ∀ first rest, folderNames key = first :: rest → lstrip first = first
  oneWay : Tidy (folderNames key) ∧ Alone keys (folderNames key) ∨
    ¬ Tidy (folderNames key) ∧ ∃! names, LeadsTo keys (folderNames key) names

theorem once_iff : (∃! path, FoundAt keys path key) ↔
    fileName key ≠ [] ∧ CleanNames (folderNames key) ∧
      ∃! names, LeadsTo keys (folderNames key) names := by
  constructor
  · intro once
    obtain ⟨path, found, only⟩ := once
    obtain ⟨live, clean, names, chain, trimmed, rfl⟩ := foundAt_iff.mp found
    refine ⟨live, clean, names, ⟨chain, trimmed⟩, fun other leads => ?_⟩
    have same := only (joinNames other)
      (foundAt_iff.mpr ⟨live, clean, other, leads.chain, leads.trimmed, rfl⟩)
    exact joinOn_injective leads.chain.segments chain.segments same
  · intro claim
    obtain ⟨live, clean, names, leads, only⟩ := claim
    refine ⟨joinNames names,
      foundAt_iff.mpr ⟨live, clean, names, leads.chain, leads.trimmed, rfl⟩, fun path found => ?_⟩
    obtain ⟨_, _, other, chain, trimmed, rfl⟩ := foundAt_iff.mp found
    rw [only other ⟨chain, trimmed⟩]

section Untrimmed

/-- Names that trimming leaves as they are. -/
structure Untrimmed (names : List Str) : Prop where
  tidy : Tidy names
  named : ∀ name ∈ names, name ≠ []
  left : ∀ first rest, names = first :: rest → lstrip first = first

theorem Untrimmed.begin (untrimmed : Untrimmed (front ++ rest)) : Untrimmed front where
  tidy name member := untrimmed.tidy name (by simp [member])
  named name member := untrimmed.named name (by simp [member])
  left first more same := untrimmed.left first (more ++ rest) (by rw [same]; rfl)

theorem Untrimmed.trimLast (untrimmed : Untrimmed names) : trimLast names = names := by
  cases names using List.reverseRecOn with
  | nil => rfl
  | append_singleton front last =>
      have live := untrimmed.named last (by simp)
      rw [trimLast_snoc, untrimmed.tidy last (by simp), if_neg (by simpa using live)]

theorem Untrimmed.trimHead (untrimmed : Untrimmed names) : trimHead names = names := by
  cases names with
  | nil => rfl
  | cons first rest => rw [Ui.trimHead, untrimmed.left first rest rfl]

theorem Untrimmed.trimNames (untrimmed : Untrimmed names) : trimNames names = names := by
  unfold Ui.trimNames
  rw [untrimmed.trimHead, untrimmed.trimLast]

theorem chain_self (present : keys key) (clean : CleanNames (folderNames key))
    (untrimmed : Untrimmed (folderNames key)) : Chain keys (folderNames key) := by
  intro front name rest split
  have segments := clean.segments
  rw [split] at segments untrimmed
  have before : Segments '/' front := fun other member => segments other (by simp [member])
  obtain ⟨live, plain⟩ := segments name (by simp)
  refine ⟨live, plain, key, present, ?_⟩
  rw [untrimmed.begin.trimNames, folderPrefix_join before]
  have whole : key = joinNames (front ++ [name]) ++ '/' :: joinNames (rest ++ [fileName key]) := by
    change key = joinOn '/' (front ++ [name]) ++ '/' :: joinOn '/' (rest ++ [fileName key])
    rw [← joinOn_append (by simp) (by simp)]
    conv_lhs => rw [← joinNames_key key, split]
    simp
  exact ⟨joinNames (rest ++ [fileName key]), by rw [List.append_assoc]; exact whole.symm⟩

theorem rstrip_blank (blank : rstrip (lstrip name) = []) : rstrip name = [] := by
  have none : strip name = [] := blank
  have blanks := (trimBy_eq_nil_iff isSpace).mp none
  simpa [rstrip] using blanks

theorem blank_rstrip (blank : rstrip name = []) : rstrip (lstrip name) = [] := by
  have blanks : ∀ c ∈ name, isSpace c = true := by simpa [rstrip] using blank
  exact (trimBy_eq_nil_iff isSpace).mpr blanks

theorem first_twin_chain {other : Str} (chain : Chain keys (name :: rest))
    (directory : DirectoryAt keys [] other) (same : lstrip other = lstrip name) :
    Chain keys (other :: rest) := by
  intro front next more split
  cases front with
  | nil =>
      obtain ⟨rfl, rfl⟩ := List.cons.inj split
      exact directory
  | cons first begun =>
      obtain ⟨rfl, rfl⟩ := List.cons.inj split
      have shared : trimNames (other :: begun) = trimNames (name :: begun) := by
        change trimLast (lstrip other :: begun) = trimLast (lstrip name :: begun)
        rw [same]
      rw [shared]
      exact chain (name :: begun) next more rfl

theorem twin_leads {other : Str} (chain : Chain keys (front ++ name :: rest))
    (untrimmed : Untrimmed (front ++ name :: rest))
    (directory : DirectoryAt keys (joinNames front) other)
    (same : seenAs front rest other = name) :
    LeadsTo keys (front ++ name :: rest) (front ++ other :: rest) := by
  have live := untrimmed.named name (by simp)
  cases front with
  | nil =>
      cases rest with
      | nil =>
          have trimmed : rstrip (lstrip other) = name := same
          refine ⟨?_, ?_⟩
          · exact @Chain.snoc keys [] other (fun _ _ _ split => by simp at split) directory
          · change trimLast [lstrip other] = [name]
            rw [trimLast, trimmed, if_neg (by simpa using live)]
      | cons next more =>
          have trimmed : lstrip other = name := same
          have kept := untrimmed.trimLast
          refine ⟨first_twin_chain chain directory ?_, ?_⟩
          · rw [trimmed, untrimmed.left name (next :: more) rfl]
          · change trimLast (lstrip other :: next :: more) = _
            rw [trimmed]
            exact kept
  | cons first begun =>
      cases rest with
      | nil =>
          have trimmed : rstrip other = name := same
          have begin := untrimmed.begin
          refine ⟨chain.begin.snoc (by rw [begin.trimNames]; exact directory), ?_⟩
          unfold trimNames
          rw [trimHead_append (by simp), begin.trimHead, trimLast_snoc, trimmed,
            if_neg (by simpa using live)]
      | cons next more =>
          obtain rfl : other = name := same
          exact ⟨chain, untrimmed.trimNames⟩

theorem blank_leads {other : Str} (chain : Chain keys folder) (untrimmed : Untrimmed folder)
    (directory : DirectoryAt keys (joinNames folder) other) (blank : rstrip other = []) :
    LeadsTo keys folder (folder ++ [other]) := by
  refine ⟨chain.snoc (by rw [untrimmed.trimNames]; exact directory), ?_⟩
  cases folder with
  | nil =>
      change trimLast [lstrip other] = []
      rw [trimLast, blank_rstrip blank]
      rfl
  | cons first rest =>
      unfold trimNames
      rw [trimHead_append (by simp), untrimmed.trimHead, trimLast_snoc, blank]
      rfl

theorem leads_alone {names : List Str} (untrimmed : Untrimmed folder)
    (alone : Alone keys folder) (leads : LeadsTo keys folder names) : names = folder := by
  obtain ⟨chain, rfl⟩ := leads
  cases names using List.reverseRecOn with
  | nil => rfl
  | append_singleton front last =>
      have listed := chain front last [] rfl
      cases front with
      | nil =>
          have shape : trimNames ([] ++ [last]) =
              if (rstrip (lstrip last)).isEmpty then [] else [rstrip (lstrip last)] := rfl
          rw [shape] at alone ⊢
          split at alone
          · next blank =>
              exact absurd (rstrip_blank (List.isEmpty_iff.mp blank)) (alone.inside last listed)
          · next kept =>
              rw [if_neg kept]
              have twin := alone.twinless [] _ [] rfl last listed rfl
              rw [List.nil_append, ← twin]
      | cons first middle =>
          have shape : trimNames (first :: middle ++ [last]) =
              if (rstrip last).isEmpty then lstrip first :: middle
              else lstrip first :: middle ++ [rstrip last] :=
            trimLast_snoc (lstrip first :: middle) last
          have start := chain [] first (middle ++ [last]) rfl
          rw [shape] at alone untrimmed ⊢
          split at alone
          · next blank =>
              rw [if_pos blank] at untrimmed
              have kept : trimNames (first :: middle) = lstrip first :: middle :=
                untrimmed.trimLast
              rw [kept] at listed
              exact absurd (List.isEmpty_iff.mp blank) (alone.inside last listed)
          · next live =>
              rw [if_neg live] at untrimmed ⊢
              have kept : trimNames (first :: middle) = lstrip first :: middle :=
                untrimmed.begin.trimLast
              rw [kept] at listed
              have firstSame := alone.twinless [] (lstrip first) (middle ++ [rstrip last]) rfl first
                start (by simp [seenAs])
              have lastSame := alone.twinless (lstrip first :: middle) (rstrip last) [] rfl last
                listed (by simp [seenAs])
              rw [← firstSame, ← lastSame]

theorem alone_iff (present : keys key) (clean : CleanNames (folderNames key))
    (untrimmed : Untrimmed (folderNames key)) :
    (∃! names, LeadsTo keys (folderNames key) names) ↔ Alone keys (folderNames key) := by
  have chain := chain_self present clean untrimmed
  have self : LeadsTo keys (folderNames key) (folderNames key) := ⟨chain, untrimmed.trimNames⟩
  constructor
  · intro once
    refine ⟨fun front name rest split other directory same => ?_, fun other directory blank => ?_⟩
    · rw [split] at chain untrimmed self once
      have twin := once.unique (twin_leads chain untrimmed directory same) self
      exact (List.cons.inj (List.append_cancel_left twin)).1
    · have again := once.unique (blank_leads chain untrimmed directory blank) self
      exact absurd again (by simp)
  · intro alone
    exact ⟨_, self, fun names leads => leads_alone untrimmed alone leads⟩

theorem trimmed_left {first : Str} (trimmed : trimNames names = first :: rest) :
    lstrip first = first := by
  cases names with
  | nil => cases trimmed
  | cons name more =>
      change trimLast (lstrip name :: more) = _ at trimmed
      cases more with
      | nil =>
          rw [trimLast] at trimmed
          split at trimmed
          · cases trimmed
          · obtain ⟨rfl, _⟩ := List.cons.inj trimmed
            exact ((trimBy_eq_self_iff isSpace).mp (trimBy_idempotent isSpace name)).1
      | cons next later =>
          obtain ⟨rfl, _⟩ := List.cons.inj trimmed
          exact List.dropWhile_idempotent isSpace name

end Untrimmed

/-- An object is found in exactly one folder iff its folder names allow it. -/
theorem found_once_iff (present : keys key) :
    (∃! path, FoundAt keys path key) ↔ Browsable keys key := by
  rw [once_iff]
  constructor
  · intro claim
    obtain ⟨live, clean, once⟩ := claim
    have left : ∀ first rest, folderNames key = first :: rest → lstrip first = first := by
      intro first rest split
      obtain ⟨names, leads, _⟩ := once
      exact trimmed_left (leads.trimmed.trans split)
    refine ⟨live, clean, left, ?_⟩
    by_cases tidy : Tidy (folderNames key)
    · exact .inl ⟨tidy, (alone_iff present clean ⟨tidy, clean.named, left⟩).mp once⟩
    · exact .inr ⟨tidy, once⟩
  · intro browsable
    refine ⟨browsable.named, browsable.clean, ?_⟩
    obtain ⟨tidy, alone⟩ | ⟨_, once⟩ := browsable.oneWay
    · exact (alone_iff present browsable.clean ⟨tidy, browsable.clean.named, browsable.left⟩).mpr
        alone
    · exact once

/-- Trimming blanks neither leads away from the folder of an object nor leads to it
from elsewhere. -/
structure Unmoved (keys : Str → Prop) (key : Str) : Prop where
  tidy : Tidy (folderNames key)
  left : ∀ first rest, folderNames key = first :: rest → lstrip first = first
  alone : Alone keys (folderNames key)

theorem browsable_iff_clean (unmoved : Unmoved keys key) :
    Browsable keys key ↔ fileName key ≠ [] ∧ CleanNames (folderNames key) := by
  constructor
  · intro browsable
    exact ⟨browsable.named, browsable.clean⟩
  · intro claim
    exact ⟨claim.1, claim.2, unmoved.left, .inl ⟨unmoved.tidy, unmoved.alone⟩⟩

end Unique

end S3Manager.Ui
