import S3Manager.Ui.FileBrowser
import S3Manager.Utils.Sanitize

/-! Joining a folder and a name in the browser and sanitizing the result on the
server: for which names the two give back the name under the listed prefix. -/

set_option autoImplicit false

namespace S3Manager.Ui

open Python Utils Library

/-- A folder path as it is sent, and a prefix that its listing can be made for. A
path of blanks is listed as if it were empty. -/
inductive Opened : Str → Str → Prop where
  | root : Opened [] []
  | inside {folder root : Str} : folder ≠ [] → root ≠ [] → sanitizePath folder = .ok root →
      Opened folder (root ++ ['/'])
  | blank {folder base : Str} : folder ≠ [] → sanitizePath folder = .ok [] → Opened folder base

/-- The names that survive the way from a listing back to S3. -/
structure NameKept (folder name : Str) : Prop where
  dotless : ¬ ['.', '.'] <:+: name
  printable : ∀ c ∈ name, isControl c = false
  slashes : stripSlash name = name
  right : rstrip name = name
  left : folder = [] → lstrip name = name
  folderRight : rstrip folder = folder

theorem joinPath_two (folder name : Str) :
    joinPath [folder, name] =
      if stripSlash folder = [] then stripSlash name
      else if stripSlash name = [] then stripSlash folder
      else stripSlash folder ++ '/' :: stripSlash name := by
  by_cases front : stripSlash folder = [] <;> by_cases back : stripSlash name = [] <;>
    simp [joinPath, front, back, List.intercalate]

section Slashes

variable {name : Str}

theorem stripSlash_nil : stripSlash [] = [] := rfl

theorem stripSlash_nil_iff : stripSlash name = [] ↔ ∀ c ∈ name, c = '/' := by
  simp [stripSlash, trimBy_eq_nil_iff]

theorem rstrip_length_le (text : Str) : (rstrip text).length ≤ text.length :=
  (List.rdropWhile_prefix isSpace text).length_le

theorem rstripSlash_length_le (text : Str) : (rstripSlash text).length ≤ text.length :=
  (List.rdropWhile_prefix isSlash text).length_le

theorem rstrip_idempotent (text : Str) : rstrip (rstrip text) = rstrip text :=
  List.rdropWhile_idempotent isSpace text

theorem stripSlash_last (name init : Str) : stripSlash name ≠ init ++ ['/'] := fun split => by
  have kept := trimBy_last_not isSlash split
  simp [isSlash] at kept

theorem joinPath_last (path name init : Str) : joinPath [path, name] ≠ init ++ ['/'] := by
  rw [joinPath_two]
  split_ifs with noPath noName
  · exact stripSlash_last name init
  · exact stripSlash_last path init
  · intro ends
    have last := congrArg List.getLast? ends
    rw [List.getLast?_append, List.getLast?_cons, List.getLast?_concat] at last
    cases shape : (stripSlash name).getLast? with
    | none => exact noName (List.getLast?_eq_none_iff.mp shape)
    | some c =>
        rw [shape] at last
        obtain ⟨front, split⟩ := List.getLast?_eq_some_iff.mp shape
        obtain rfl : c = '/' := by simpa using last
        exact stripSlash_last name front split

theorem lstrip_stripSlash_last (name init : Str) : lstrip (stripSlash name) ≠ init ++ ['/'] := by
  intro shape
  obtain ⟨leading, split, -⟩ := dropWhile_append_leading isSpace (stripSlash name)
  change stripSlash name = leading ++ lstrip (stripSlash name) at split
  rw [shape, ← List.append_assoc] at split
  exact stripSlash_last name _ split

theorem stripSlash_live (visible : name ≠ []) (plain : rstripSlash name = name) :
    stripSlash name ≠ [] := by
  intro empty
  have slashes := stripSlash_nil_iff.mp empty
  have gone : rstripSlash name = [] := by
    simpa [rstripSlash] using slashes
  exact visible (plain.symm.trans gone)

theorem plain_of_stripSlash (same : stripSlash name = name) :
    (∀ rest, name ≠ '/' :: rest) ∧ rstripSlash name = name := by
  obtain ⟨head, last⟩ := (trimBy_eq_self_iff isSlash).mp same
  refine ⟨fun rest shape => ?_, last⟩
  rw [shape] at head
  have kept := dropWhile_head_not isSlash head
  simp [isSlash] at kept

end Slashes

section Folder

variable {folder root : Str}

theorem folder_shape (nonempty : folder ≠ []) (live : root ≠ [])
    (accepted : sanitizePath folder = .ok root) :
    stripSlash folder = rstripSlash folder ∧ lstrip (stripSlash folder) ≠ [] ∧
      (lstrip (stripSlash folder) = root ↔ rstrip folder = folder) := by
  obtain ⟨-, relative, shape, -⟩ := (sanitizePath_eq_ok_iff nonempty).mp accepted
  have notAbsolute : ∀ rest, folder ≠ '/' :: rest := by
    intro rest absolute
    obtain ⟨tail, starts⟩ := strip_slash_head rest
    exact relative tail (absolute ▸ starts)
  have trimmed : stripSlash folder = rstripSlash folder := stripSlash_of_head notAbsolute
  have stripped : strip folder ≠ [] := by
    intro empty
    rw [empty] at shape
    exact live shape
  have visible : lstrip folder ≠ [] := by
    intro empty
    exact stripped (by rw [strip, trimBy, show folder.dropWhile isSpace = [] from empty]; rfl)
  obtain ⟨leading, split, blank⟩ := dropWhile_append_leading isSpace folder
  change folder = leading ++ lstrip folder at split
  have rootHead : lstrip root = root := by
    refine dropWhile_eq_self_of_head isSpace fun c rest starts => ?_
    exact (sanitizePath_head accepted starts).1
  obtain ⟨count, whole⟩ := rstripSlash_split folder
  rw [trimmed]
  refine ⟨rfl, ?_, ?_, ?_⟩
  · intro allBlank
    have blanks : ∀ c ∈ rstripSlash folder, isSpace c = true := by
      simpa [lstrip, List.dropWhile_eq_nil_iff] using allBlank
    have left : lstrip folder = lstrip (List.replicate count '/') := by
      conv_lhs => rw [whole]
      exact dropWhile_blank_append isSpace _ blanks
    cases count with
    | zero => exact visible (by simpa [lstrip] using left)
    | succ more =>
        rw [List.replicate_succ, lstrip, lstrip,
          List.dropWhile_cons_of_neg (by simp [isSpace_slash])] at left
        refine relative (rstrip (List.replicate more '/')) ?_
        rw [strip, trimBy, left]
        exact rstrip_append_slash [] _
  · intro same
    cases count with
    | succ more =>
        rw [whole, List.replicate_succ', ← List.append_assoc]
        exact rstrip_slash _
    | zero =>
        have plain : rstripSlash folder = folder := by simpa using whole.symm
        rw [plain] at same
        have bounded : root.length ≤ (rstrip root).length := by
          calc root.length = (rstripSlash (rstrip root)).length := by
                rw [← same]
                exact congrArg List.length (same.trans shape)
            _ ≤ (rstrip root).length := rstripSlash_length_le _
        have rootRight : rstrip root = root :=
          (List.rdropWhile_prefix isSpace root).eq_of_length_le bounded
        rw [split, same, rstrip_append_of_live leading (rootRight.symm ▸ live), rootRight]
  · intro right
    have core : strip folder = rstrip (lstrip folder) := rfl
    have visibleCore : rstrip (lstrip folder) ≠ [] := stripped
    have kept : rstrip (lstrip folder) = lstrip folder := by
      have whole := right
      rw [split, rstrip_append_of_live leading visibleCore] at whole
      exact List.append_cancel_left whole
    have tail : rstripSlash folder = leading ++ root := by
      have shape' : root = rstripSlash (lstrip folder) := by rw [shape, core, kept]
      conv_lhs => rw [split]
      rw [shape']
      exact rstripSlash_append_of_live leading (shape' ▸ live)
    rw [tail]
    exact (dropWhile_blank_append isSpace root blank).trans rootHead

theorem folder_blank (nonempty : folder ≠ []) (accepted : sanitizePath folder = .ok []) :
    ∀ c ∈ folder, isSpace c = true := by
  obtain ⟨-, relative, shape, -⟩ := (sanitizePath_eq_ok_iff nonempty).mp accepted
  obtain ⟨count, whole⟩ := rstripSlash_split (strip folder)
  rw [← shape, List.nil_append] at whole
  cases count with
  | zero => exact (trimBy_eq_nil_iff isSpace).mp whole
  | succ more => exact absurd whole (relative _)

end Folder

section Names

variable {folder root name : Str}

theorem stripSlash_split {front tail : Str} (shape : name = front ++ '/' :: tail)
    (visible : front.dropWhile isSlash ≠ []) (plain : rstripSlash name = name) :
    stripSlash name = front.dropWhile isSlash ++ '/' :: tail := by
  have left : name.dropWhile isSlash = front.dropWhile isSlash ++ '/' :: tail := by
    rw [shape, dropWhile_append_of_live isSlash _ visible]
  have last : (front.dropWhile isSlash ++ '/' :: tail).rdropWhile isSlash =
      front.dropWhile isSlash ++ '/' :: tail := by
    refine rdropWhile_eq_self_of_last isSlash fun init c ends => ?_
    obtain ⟨leading, split, -⟩ := dropWhile_append_leading isSlash front
    have whole : name = leading ++ init ++ [c] := by
      rw [shape, List.append_assoc, ← ends, ← List.append_assoc, ← split]
    exact rdropWhile_last_not isSlash (plain.trans whole)
  rw [stripSlash, trimBy, left, last]

/-- Comparing the joined text with the listed key, from the left: the folder comes
back as the root, and the name as itself. -/
theorem joined_eq_key {start sent : Str} (last : ∀ init, start ≠ init ++ ['/'])
    (plain : rstripSlash name = name)
    (shape : sent = stripSlash name ∨ sent = rstrip (stripSlash name))
    (same : start ++ '/' :: sent = root ++ '/' :: name) : start = root ∧ sent = name := by
  have short : sent.length ≤ name.length := by
    obtain rfl | rfl := shape
    · exact trimBy_length_le isSlash name
    · exact (rstrip_length_le _).trans (trimBy_length_le isSlash name)
  have lengths := congrArg List.length same
  simp only [List.length_append, List.length_cons] at lengths
  obtain ⟨extra, rfl⟩ : root <+: start :=
    List.prefix_of_prefix_length_le ⟨_, same.symm⟩ (List.prefix_append ..) (by omega)
  rw [List.append_assoc] at same
  have rest := List.append_cancel_left same
  cases extra with
  | nil => exact ⟨List.append_nil root, (List.cons.inj rest).2⟩
  | cons c front =>
      obtain ⟨rfl, split⟩ := List.cons.inj rest
      -- The name would have the sent text behind one more slash.
      have visible : front.dropWhile isSlash ≠ [] := by
        intro slashes
        have all : ∀ c ∈ front, c = '/' := by simpa using slashes
        cases front using List.reverseRecOn with
        | nil => exact last root rfl
        | append_singleton init c =>
            obtain rfl := all c (by simp)
            exact last (root ++ '/' :: init) (by simp)
      have stripped := stripSlash_split split.symm visible plain
      obtain rfl | trimmed := shape
      · have lengths := congrArg List.length stripped
        simp only [List.length_append, List.length_cons] at lengths
        omega
      · rw [stripped, rstrip_append_slash] at trimmed
        have lengths := congrArg List.length trimmed
        have again : rstrip sent = sent := by
          rw [trimmed, rstrip_append_slash, rstrip_idempotent]
        rw [again] at lengths
        simp only [List.length_append, List.length_cons] at lengths
        omega

end Names

section Dots

theorem dots_infix_iff {front back : Str} :
    ['.', '.'] <:+: front ++ '/' :: back ↔ ['.', '.'] <:+: front ∨ ['.', '.'] <:+: back := by
  constructor
  · intro found
    obtain inFront | inBack | ⟨left, right, split, ends, starts⟩ := List.infix_append_iff.mp found
    · exact .inl inFront
    · obtain starts | inside := List.infix_cons_iff.mp inBack
      · exact absurd (List.cons_prefix_cons.mp starts).1 (by decide)
      · exact .inr inside
    · cases right with
      | nil => exact .inl (by simpa [split] using ends.isInfix)
      | cons c rest =>
          obtain ⟨rfl, -⟩ := List.cons_prefix_cons.mp starts
          have member : '/' ∈ ['.', '.'] := by simp [split]
          exact absurd member (by decide)
  · intro found
    obtain inFront | inBack := found
    · exact inFront.trans (List.prefix_append ..).isInfix
    · exact inBack.trans ((List.suffix_cons ..).trans (List.suffix_append ..)).isInfix

end Dots

section Ways

variable {folder base name root : Str}

theorem sanitizePath_of_strip {path key : Str} (nonempty : path ≠ [])
    (stripped : strip path = key ∨ strip path = key ++ ['/']) (live : key ≠ [])
    (relative : ∀ rest, key ≠ '/' :: rest) (plain : rstripSlash key = key)
    (dotless : ¬ ['.', '.'] <:+: key) (printable : ∀ c ∈ key, isControl c = false) :
    sanitizePath path = .ok key := by
  refine (sanitizePath_eq_ok_iff nonempty).mpr ⟨?_, ?_, ?_, printable⟩
  · obtain same | slash := stripped
    · rwa [same]
    · rw [slash, dots_infix_iff]
      simp [dotless]
  · intro rest starts
    obtain same | slash := stripped
    · exact relative rest (same.symm.trans starts)
    · cases key with
      | nil => exact live rfl
      | cons c tail =>
          obtain rfl := (List.cons.inj (slash.symm.trans starts)).1
          exact relative tail rfl
  · obtain same | slash := stripped
    · rw [same, plain]
    · rw [slash]
      exact ((rdropWhile_concat_blank isSlash key (by simp)).trans plain).symm

theorem strip_joined {front back : Str} (visible : lstrip front ≠ []) :
    strip (front ++ '/' :: back) = lstrip front ++ '/' :: rstrip back := by
  have left : (front ++ '/' :: back).dropWhile isSpace = lstrip front ++ '/' :: back :=
    dropWhile_append_of_live isSpace _ visible
  rw [strip, trimBy, left]
  exact rstrip_append_slash _ _

theorem key_plain {name : Str} (base : Str) (visible : name ≠ []) (plain : rstripSlash name = name) :
    rstripSlash (base ++ name) = base ++ name := by
  rw [rstripSlash_append_of_live base (plain.symm ▸ visible), plain]

theorem join_kept (opened : Opened folder base) (visible : name ≠ [])
    (kept : NameKept folder name) :
    sanitizePath (joinPath [folder, name]) = .ok (base ++ name) ∧
      sanitizePath (joinPath [folder, name] ++ ['/']) = .ok (base ++ name) ∧
      endsWith (rstrip (joinPath [folder, name])) ['/'] = false := by
  obtain ⟨relative, plain⟩ := plain_of_stripSlash kept.slashes
  have noSlash (front : Str) : endsWith (front ++ name) ['/'] = false := by
    rw [← Bool.not_eq_true]
    intro ends
    obtain ⟨init, shape⟩ := endsWith_slash_iff.mp ends
    exact rstripSlash_last ((key_plain front visible plain).trans shape)
  cases opened with
  | root =>
      have stripped : strip name = name :=
        (trimBy_eq_self_iff isSpace).mpr ⟨kept.left rfl, kept.right⟩
      have withSlash : strip (name ++ ['/']) = name ++ ['/'] := by
        have live : lstrip name ≠ [] := by rwa [kept.left rfl]
        have joined : strip (name ++ ['/']) = lstrip name ++ '/' :: rstrip [] := strip_joined live
        simpa [kept.left rfl, rstrip] using joined
      have joined : joinPath [[], name] = name := by
        rw [joinPath_two, stripSlash_nil, if_pos rfl, kept.slashes]
      rw [joined, List.nil_append, kept.right]
      exact ⟨sanitizePath_of_strip visible (.inl stripped) visible relative plain kept.dotless
          kept.printable,
        sanitizePath_of_strip (by simp) (.inr withSlash) visible relative plain kept.dotless
          kept.printable,
        noSlash []⟩
  | @inside _ root nonempty live accepted =>
      obtain ⟨-, shown, same⟩ := folder_shape nonempty live accepted
      have left := same.mpr kept.folderRight
      have some : stripSlash folder ≠ [] := fun empty => shown (by rw [empty]; rfl)
      have joined : joinPath [folder, name] = stripSlash folder ++ '/' :: name := by
        rw [joinPath_two, if_neg some, kept.slashes, if_neg visible]
      have stripped : strip (stripSlash folder ++ '/' :: name) = root ++ '/' :: name := by
        rw [strip_joined shown, left, kept.right]
      have withSlash : strip (stripSlash folder ++ '/' :: name ++ ['/']) =
          root ++ '/' :: name ++ ['/'] := by
        rw [List.append_assoc, List.cons_append, strip_joined shown, left, rstrip_slash]
        simp
      obtain ⟨dotless, rooted, shape, printable⟩ := (sanitizePath_eq_ok_iff nonempty).mp accepted
      have rootDotless : ¬ ['.', '.'] <:+: root := fun found =>
        dotless (found.trans (shape ▸ (List.rdropWhile_prefix isSlash _).isInfix))
      have clean : ¬ ['.', '.'] <:+: root ++ '/' :: name := by
        rw [dots_infix_iff]
        exact fun found => found.elim rootDotless kept.dotless
      have keyRelative : ∀ rest, root ++ '/' :: name ≠ '/' :: rest := by
        intro rest starts
        cases root with
        | nil => exact live rfl
        | cons c tail =>
            exact (sanitizePath_head accepted rfl).2 (List.cons.inj starts).1
      have keyPrintable : ∀ c ∈ root ++ '/' :: name, isControl c = false := by
        intro c member
        obtain inRoot | rfl | inName : c ∈ root ∨ c = '/' ∨ c ∈ name := by simpa using member
        · exact printable c inRoot
        · decide
        · exact kept.printable c inName
      have keyPlain : rstripSlash (root ++ '/' :: name) = root ++ '/' :: name := by
        simpa using key_plain (root ++ ['/']) visible plain
      rw [joined, rstrip_append_slash, kept.right, List.append_assoc, List.singleton_append]
      exact ⟨sanitizePath_of_strip (by simp) (.inl stripped) (by simp) keyRelative keyPlain clean
          keyPrintable,
        sanitizePath_of_strip (by simp) (.inr withSlash) (by simp) keyRelative keyPlain clean
          keyPrintable,
        by simpa using noSlash (stripSlash folder ++ ['/'])⟩
  | blank nonempty accepted =>
      have gone : rstrip folder = [] := List.rdropWhile_eq_nil_iff.mpr (folder_blank nonempty accepted)
      exact absurd (kept.folderRight.symm.trans gone) nonempty

theorem kept_in_root (visible : name ≠ [])
    (sent : sanitizePath (joinPath [[], name]) = .ok name) : NameKept [] name := by
  rw [joinPath_two, stripSlash_nil, if_pos rfl] at sent
  have some : stripSlash name ≠ [] := by
    intro empty
    rw [empty, sanitizePath_nil] at sent
    exact visible (Except.ok.inj sent).symm
  obtain ⟨dotless, -, shape, printable⟩ := (sanitizePath_eq_ok_iff some).mp sent
  have first : name.length ≤ (strip (stripSlash name)).length := by
    calc name.length = (rstripSlash (strip (stripSlash name))).length := by rw [← shape]
      _ ≤ _ := rstripSlash_length_le _
  have second : (strip (stripSlash name)).length ≤ (stripSlash name).length :=
    trimBy_length_le isSpace _
  have slashes : stripSlash name = name := trimBy_eq_self_of_length isSlash (first.trans second)
  rw [slashes] at first dotless
  have stripped : strip name = name := trimBy_eq_self_of_length isSpace first
  obtain ⟨left, right⟩ := (trimBy_eq_self_iff isSpace).mp stripped
  exact ⟨stripped ▸ dotless, printable, slashes, right, fun _ => left, rfl⟩

theorem blank_refused {key : Str} (nonempty : folder ≠ []) (accepted : sanitizePath folder = .ok [])
    (live : key ≠ []) : sanitizePath (joinPath [folder, name]) ≠ .ok key := by
  intro sent
  have blanks := folder_blank nonempty accepted
  have same : stripSlash folder = folder := by
    refine trimBy_eq_self isSlash (fun c rest shape => ?_) fun init c shape => ?_ <;>
      · have blank := blanks c (by simp [shape])
        cases slash : isSlash c with
        | false => rfl
        | true =>
            obtain rfl := isSlash_iff.mp slash
            simp [isSpace_slash] at blank
  rw [joinPath_two, same, if_neg nonempty] at sent
  split at sent
  · rw [accepted] at sent
    exact live (Except.ok.inj sent).symm
  · obtain ⟨-, relative, -, -⟩ := (sanitizePath_eq_ok_iff (by simp)).mp sent
    have left : (folder ++ '/' :: stripSlash name).dropWhile isSpace = '/' :: stripSlash name := by
      rw [dropWhile_blank_append isSpace _ blanks]
      simp [isSpace_slash]
    refine relative (rstrip (stripSlash name)) ?_
    rw [strip, trimBy, left]
    exact rstrip_append_slash [] _

/-- A name that comes back below a folder is a kept one, if what is sent starts with
the listed root. -/
theorem kept_inside (nonempty : folder ≠ []) (live : root ≠ [])
    (accepted : sanitizePath folder = .ok root) (visible : name ≠ [])
    (front : lstrip (stripSlash folder) = root) (slashes : stripSlash name = name)
    (sent : sanitizePath (joinPath [folder, name]) = .ok (root ++ '/' :: name)) :
    NameKept folder name := by
  obtain ⟨-, shown, same⟩ := folder_shape nonempty live accepted
  have some : stripSlash folder ≠ [] := fun empty => shown (by rw [empty]; rfl)
  rw [joinPath_two, if_neg some, slashes, if_neg visible] at sent
  obtain ⟨dotless, -, shape, printable⟩ := (sanitizePath_eq_ok_iff (by simp)).mp sent
  rw [strip_joined shown, front] at dotless shape
  have long : name.length ≤ (rstrip name).length := by
    have bounded := rstripSlash_length_le (root ++ '/' :: rstrip name)
    rw [← shape] at bounded
    simpa using bounded
  have right : rstrip name = name := (List.rdropWhile_prefix isSpace name).eq_of_length_le long
  rw [right, dots_infix_iff] at dotless
  exact ⟨fun found => dotless (.inr found), fun c member => printable c (by simp [member]), slashes,
    right, fun empty => absurd empty nonempty, same.mp front⟩

theorem kept_of_file (opened : Opened folder base) (visible : name ≠ [])
    (sent : sanitizePath (joinPath [folder, name]) = .ok (base ++ name))
    (single : endsWith (rstrip (joinPath [folder, name])) ['/'] = false) :
    NameKept folder name := by
  cases opened with
  | root => exact kept_in_root visible sent
  | blank nonempty accepted =>
      exact absurd sent (blank_refused nonempty accepted (by simp [visible]))
  | @inside _ root nonempty live accepted =>
      obtain ⟨-, shown, same⟩ := folder_shape nonempty live accepted
      have some : stripSlash folder ≠ [] := fun empty => shown (by rw [empty]; rfl)
      rw [List.append_assoc, List.singleton_append] at sent
      have plain : rstripSlash name = name := by
        refine rdropWhile_eq_self_of_last isSlash fun init c shape => ?_
        cases slash : isSlash c with
        | false => rfl
        | true =>
            obtain rfl := isSlash_iff.mp slash
            exact absurd (by simp [shape]) (sanitizePath_last sent (root ++ '/' :: init))
      have joined : joinPath [folder, name] = stripSlash folder ++ '/' :: stripSlash name := by
        rw [joinPath_two, if_neg some, if_neg (stripSlash_live visible plain)]
      have key := sent
      rw [joined] at key
      obtain ⟨-, -, shape, -⟩ := (sanitizePath_eq_ok_iff (by simp)).mp key
      have ending : endsWith (lstrip (stripSlash folder) ++ '/' :: rstrip (stripSlash name)) ['/'] =
          false := by
        rw [joined, rstrip_append_slash] at single
        obtain ⟨leading, split, -⟩ := dropWhile_append_leading isSpace (stripSlash folder)
        rw [← Bool.not_eq_true] at single ⊢
        intro ends
        refine single (endsWith_iff.mpr ?_)
        rw [split, List.append_assoc]
        exact (endsWith_iff.mp ends).trans (List.suffix_append ..)
      rw [strip_joined shown, rstripSlash_eq_self ending] at shape
      obtain ⟨front, back⟩ :=
        joined_eq_key (lstrip_stripSlash_last folder) plain (.inr rfl) shape.symm
      have long : name.length ≤ (stripSlash name).length := by
        calc name.length = (rstrip (stripSlash name)).length := by rw [back]
          _ ≤ _ := rstrip_length_le _
      exact kept_inside nonempty live accepted visible front
        (trimBy_eq_self_of_length isSlash long) sent

/-- The way of a directory: its prefix comes back when it is opened and when it is
deleted. -/
theorem kept_of_directory (opened : Opened folder base) (visible : name ≠ [])
    (plain : rstripSlash name = name)
    (sent : sanitizePath (joinPath [folder, name]) = .ok (base ++ name))
    (deleted : sanitizePath (joinPath [folder, name] ++ ['/']) = .ok (base ++ name)) :
    NameKept folder name := by
  cases opened with
  | root => exact kept_in_root visible sent
  | blank nonempty accepted =>
      exact absurd sent (blank_refused nonempty accepted (by simp [visible]))
  | @inside _ root nonempty live accepted =>
      obtain ⟨-, shown, same⟩ := folder_shape nonempty live accepted
      have some : stripSlash folder ≠ [] := fun empty => shown (by rw [empty]; rfl)
      have backLive := stripSlash_live visible plain
      have joined : joinPath [folder, name] = stripSlash folder ++ '/' :: stripSlash name := by
        rw [joinPath_two, if_neg some, if_neg backLive]
      rw [joined, List.append_assoc, List.cons_append] at deleted
      obtain ⟨-, -, shape, -⟩ := (sanitizePath_eq_ok_iff (by simp)).mp deleted
      have ending : rstripSlash (stripSlash name) = stripSlash name :=
        rdropWhile_eq_self_of_last isSlash fun _ _ split => trimBy_last_not isSlash split
      have trimmed : rstripSlash (lstrip (stripSlash folder) ++ '/' :: (stripSlash name ++ ['/'])) =
          lstrip (stripSlash folder) ++ '/' :: stripSlash name := by
        have kept := key_plain (lstrip (stripSlash folder) ++ ['/']) backLive ending
        rw [List.append_assoc, List.singleton_append] at kept
        calc _ = rstripSlash (lstrip (stripSlash folder) ++ '/' :: stripSlash name ++ ['/']) := by
              simp
          _ = _ := (rdropWhile_concat_blank isSlash _ (by simp)).trans kept
      rw [strip_joined shown, rstrip_slash, trimmed, List.append_assoc] at shape
      obtain ⟨front, slashes⟩ :=
        joined_eq_key (lstrip_stripSlash_last folder) plain (.inl rfl) shape.symm
      rw [List.append_assoc, List.singleton_append] at sent
      exact kept_inside nonempty live accepted visible front slashes sent

end Ways

end S3Manager.Ui
