import S3Manager.Access.Gate

/-! Which strings lie under the prefixes of a role, and which strings that were
derived from a checked path do. The gate looks at a trimmed copy of the path. -/

set_option autoImplicit false

namespace S3Manager.Access

open Python Utils Library

/-- An allowed prefix without its outer blanks and its trailing slash. -/
def allowedRoot (raw : Str) : Str :=
  let allowed := strip raw
  if endsWith allowed ['/'] then allowed.dropLast else allowed

/-- Some allowed prefix is `text`, or `text` starts with it and a slash. -/
def Covered (prefixes : List Json) (text : Str) : Prop :=
  ∃ raw, .str raw ∈ prefixes ∧ strip raw ≠ [] ∧ SegmentUnder '/' (allowedRoot raw) text

/-- The gate's own decision on a path, for a role with these prefixes. -/
def GateAccepts (prefixes : List Json) (path : Str) : Prop :=
  ∃ normal, normalizeAccessKey path = .ok normal ∧ anyPrefixAllows normal prefixes = .ok true

/-- How the text that goes to S3 is made from the path that was checked: it is
the path, the path with more segments after it, or the path with one slash only. -/
inductive SentFor (path : Str) : Str → Prop where
  | same : SentFor path path
  | below (rest : Str) : SentFor path (path ++ '/' :: rest)
  | folder : endsWith path ['/'] = true → SentFor path (rstripSlash path ++ ['/'])

/-- The blanks around a path that make no difference: none in front, and none at
the end, unless they follow a slash, or a prefix lies strictly above them, or a
prefix has them too. -/
def BlanksHarmless (prefixes : List Json) (path sent : Str) : Prop :=
  lstrip path = path ∧
    (rstrip path = path ∨ endsWith (rstrip path) ['/'] = true ∨
      (∃ raw, .str raw ∈ prefixes ∧ strip raw ≠ [] ∧ allowedRoot raw ++ ['/'] <+: rstrip path) ∨
      ∃ raw, .str raw ∈ prefixes ∧ strip raw ≠ [] ∧ path <+: allowedRoot raw ∧
        SegmentUnder '/' (allowedRoot raw) sent)

section Roots

theorem anyPrefixAllows_true {key : Str} {prefixes : List Json}
    (allows : anyPrefixAllows key prefixes = .ok true) :
    ∃ raw, .str raw ∈ prefixes ∧ keyWithinPrefix key raw = true := by
  induction prefixes with
  | nil => simp [anyPrefixAllows] at allows
  | cons entry rest ih =>
      simp only [anyPrefixAllows] at allows
      obtain ⟨within, checked, next⟩ := bind_eq_ok_iff.mp allows
      cases within with
      | true =>
          cases entry with
          | str raw => exact ⟨raw, by simp, by simpa [keyWithinAllowedPrefix] using checked⟩
          | null | bool | int | float | arr | obj =>
              simp only [keyWithinAllowedPrefix] at checked
              split at checked <;> simp [raise] at checked
      | false =>
          obtain ⟨raw, member, accepted⟩ := ih (by simpa using next)
          exact ⟨raw, List.mem_cons_of_mem _ member, accepted⟩

theorem allowedRoot_of_slash {raw init : Str} (shape : strip raw = init ++ ['/']) :
    allowedRoot raw = init := by
  have ends : endsWith (strip raw) ['/'] = true := endsWith_slash_iff.mpr ⟨init, shape⟩
  simp only [allowedRoot, ends, if_true]
  rw [shape, List.dropLast_concat]

/-- The comparison of the gate is the segment order below the root of the entry. -/
theorem keyWithinPrefix_iff {key raw : Str} :
    keyWithinPrefix key raw = true ↔
      key ≠ [] ∧ strip raw ≠ [] ∧ SegmentUnder '/' (allowedRoot raw) key := by
  by_cases blank : strip raw = []
  · simp [keyWithinPrefix, blank]
  by_cases empty : key = []
  · simp [keyWithinPrefix, blank, empty]
  have withSlash : (if endsWith (strip raw) ['/'] then strip raw else strip raw ++ ['/']) =
      allowedRoot raw ++ ['/'] := by
    cases slash : endsWith (strip raw) ['/'] with
    | true =>
        obtain ⟨init, shape⟩ := endsWith_slash_iff.mp slash
        rw [if_pos rfl, allowedRoot_of_slash shape, shape]
    | false => simp [allowedRoot, slash]
  simp only [keyWithinPrefix, List.isEmpty_iff, blank, if_false, empty, withSlash,
    List.dropLast_concat, beq_iff_eq, SegmentUnder, ne_eq, not_false_eq_true, true_and]
  by_cases same : key = allowedRoot raw
  · simp [same]
  · simp [same]

theorem allowedRoot_prefix (raw : Str) : allowedRoot raw <+: strip raw := by
  unfold allowedRoot
  dsimp only
  split
  · exact List.dropLast_prefix _
  · exact List.prefix_rfl

theorem strip_prefix_root (raw : Str) : strip raw <+: allowedRoot raw ++ ['/'] := by
  cases ends : endsWith (strip raw) ['/'] with
  | true =>
      obtain ⟨init, shape⟩ := endsWith_slash_iff.mp ends
      rw [allowedRoot_of_slash shape, shape]
  | false => simp [allowedRoot, ends]

theorem allowedRoot_head {raw : Str} {c : Char} {rest : Str} (shape : allowedRoot raw = c :: rest) :
    isSpace c = false := by
  obtain ⟨tail, full⟩ := allowedRoot_prefix raw
  rw [shape] at full
  exact trimBy_head_not isSpace full.symm

end Roots

section Accepted

variable {prefixes : List Json} {path sent : Str}

/-- What an accepted path looks like: its trimmed copy does not start with a
slash, and without trailing slashes it lies under a prefix. -/
theorem GateAccepts.shape (accepted : GateAccepts prefixes path) :
    path ≠ [] ∧ (∀ rest, strip path ≠ '/' :: rest) ∧ rstripSlash (strip path) ≠ [] ∧
      ∃ raw, .str raw ∈ prefixes ∧ strip raw ≠ [] ∧
        SegmentUnder '/' (allowedRoot raw) (rstripSlash (strip path)) := by
  obtain ⟨normal, normalized, allows⟩ := accepted
  obtain ⟨raw, member, within⟩ := anyPrefixAllows_true allows
  obtain ⟨nonempty, live, under⟩ := keyWithinPrefix_iff.mp within
  have pathNonempty : path ≠ [] := by
    rintro rfl
    exact nonempty (Except.ok.inj normalized).symm
  have shown : path.isEmpty = false := by simpa using pathNonempty
  simp only [normalizeAccessKey, shown, Bool.false_eq_true, if_false] at normalized
  split at normalized
  · simp [raise] at normalized
  · cases sanitized : sanitizePath path with
    | error exc => simp [sanitized] at normalized
    | ok key =>
        obtain rfl : key = normal := by simpa [sanitized] using normalized
        obtain ⟨-, relative, rfl, -⟩ := (sanitizePath_eq_ok_iff pathNonempty).mp sanitized
        exact ⟨pathNonempty, relative, nonempty, raw, member, live, under⟩

theorem covered_of_descend {root : Str} (rest : Str)
    (under : ∃ raw, .str raw ∈ prefixes ∧ strip raw ≠ [] ∧
      SegmentUnder '/' (allowedRoot raw) root) :
    Covered prefixes (root ++ '/' :: rest) := by
  obtain ⟨raw, member, live, below⟩ := under
  exact ⟨raw, member, live, below.of_descend rest⟩

theorem covered_of_trimmed (accepted : GateAccepts prefixes path) (shape : SentFor path sent)
    (left : lstrip path = path) (right : rstrip path = path) : Covered prefixes sent := by
  obtain ⟨-, -, -, under⟩ := accepted.shape
  have trimmed : strip path = path := (trimBy_eq_self_iff isSpace).mpr ⟨left, right⟩
  rw [trimmed] at under
  obtain ⟨count, split⟩ := rstripSlash_split path
  cases shape with
  | same =>
      cases count with
      | zero =>
          have whole : path = rstripSlash path := by simpa using split
          rw [← whole] at under
          exact under
      | succ more =>
          rw [split]
          exact covered_of_descend (List.replicate more '/') under
  | below rest =>
      cases count with
      | zero =>
          have whole : path = rstripSlash path := by simpa using split
          rw [← whole] at under
          exact covered_of_descend rest under
      | succ more =>
          have split' : path ++ '/' :: rest =
              rstripSlash path ++ '/' :: (List.replicate more '/' ++ '/' :: rest) := by
            conv_lhs => rw [split]
            simp [List.replicate_succ]
          rw [split']
          exact covered_of_descend _ under
  | folder _ => exact covered_of_descend [] under

theorem prefix_sent (shape : SentFor path sent) (right : rstrip path ≠ path) : path <+: sent := by
  cases shape with
  | same => exact List.prefix_rfl
  | below rest => exact List.prefix_append ..
  | folder slash =>
      obtain ⟨init, rfl⟩ := endsWith_slash_iff.mp slash
      exact absurd (rstrip_slash init) right

theorem sent_head (accepted : GateAccepts prefixes path) (shape : SentFor path sent) :
    ∃ c rest rest', c ≠ '/' ∧ path = c :: rest ∧ sent = c :: rest' := by
  obtain ⟨nonempty, relative, -, -⟩ := accepted.shape
  cases path with
  | nil => exact absurd rfl nonempty
  | cons c rest =>
      have other : c ≠ '/' := by
        rintro rfl
        have leftTrimmed : lstrip ('/' :: rest) = '/' :: rest :=
          dropWhile_eq_self_of_head isSpace (by simp [isSpace_slash])
        obtain ⟨tail, full⟩ : ∃ tail, strip ('/' :: rest) = '/' :: tail := by
          obtain ⟨leading, trailing, split, blank, -⟩ := trimBy_split isSpace ('/' :: rest)
          cases leading with
          | cons first more =>
              obtain rfl : '/' = first := by simpa using (List.cons.inj split).1
              exact absurd (blank '/' (by simp)) (by simp [isSpace_slash])
          | nil =>
              cases trimmed : trimBy isSpace ('/' :: rest) with
              | nil =>
                  have all := (trimBy_eq_nil_iff isSpace).mp trimmed '/' (by simp)
                  simp [isSpace_slash] at all
              | cons first more =>
                  rw [trimmed] at split
                  obtain rfl : '/' = first := by simpa using (List.cons.inj split).1
                  exact ⟨more, trimmed⟩
        exact relative tail full
      cases shape with
      | same => exact ⟨c, rest, rest, other, rfl, rfl⟩
      | below more => exact ⟨c, rest, rest ++ '/' :: more, other, rfl, rfl⟩
      | folder _ =>
          obtain ⟨count, split⟩ := rstripSlash_split (c :: rest)
          cases bare : rstripSlash (c :: rest) with
          | nil =>
              cases count with
              | zero => simp [bare] at split
              | succ more =>
                  simp only [bare, List.nil_append, List.replicate_succ] at split
                  exact absurd (List.cons.inj split).1 other
          | cons first more =>
              rw [bare] at split
              obtain rfl : c = first := by simpa using (List.cons.inj split).1
              exact ⟨c, rest, more ++ ['/'], other, rfl, rfl⟩

theorem covered_of_blanksHarmless (accepted : GateAccepts prefixes path)
    (shape : SentFor path sent) (harmless : BlanksHarmless prefixes path sent) :
    Covered prefixes sent := by
  obtain ⟨left, right | slash | ⟨raw, member, live, above⟩ | ⟨raw, member, live, -, under⟩⟩ :=
    harmless
  · exact covered_of_trimmed accepted shape left right
  · by_cases right : rstrip path = path
    · exact covered_of_trimmed accepted shape left right
    · obtain ⟨-, -, -, under⟩ := accepted.shape
      rw [strip, trimBy_eq_rdropWhile_of_head isSpace left] at under
      obtain ⟨count, split⟩ := rstripSlash_split (rstrip path)
      obtain ⟨init, ends⟩ := endsWith_slash_iff.mp slash
      cases count with
      | zero => exact absurd (by simpa [ends] using split.symm.trans ends) rstripSlash_last
      | succ more =>
          obtain ⟨blanks, whole, -⟩ := rstrip_split path
          obtain ⟨tail, rest⟩ := prefix_sent shape right
          have sentShape : sent =
              rstripSlash (rstrip path) ++ '/' :: (List.replicate more '/' ++ blanks ++ tail) := by
            calc sent = (rstrip path ++ blanks) ++ tail := by rw [← rest]; exact congrArg (· ++ tail) whole
              _ = ((rstripSlash (rstrip path) ++ List.replicate (more + 1) '/') ++ blanks) ++ tail := by
                  rw [← split]
              _ = _ := by simp [List.replicate_succ]
          rw [sentShape]
          exact covered_of_descend _ under
  · by_cases right : rstrip path = path
    · exact covered_of_trimmed accepted shape left right
    · obtain ⟨blanks, whole, -⟩ := rstrip_split path
      have within : rstrip path <+: path := ⟨blanks, whole.symm⟩
      exact ⟨raw, member, live, .inr ((above.trans within).trans (prefix_sent shape right))⟩
  · exact ⟨raw, member, live, under⟩

theorem blanksHarmless_of_covered (accepted : GateAccepts prefixes path)
    (shape : SentFor path sent) (covered : Covered prefixes sent) :
    BlanksHarmless prefixes path sent := by
  obtain ⟨c, rest, rest', other, pathShape, sentShape⟩ := sent_head accepted shape
  obtain ⟨raw, member, live, under⟩ := covered
  have left : lstrip path = path := by
    refine dropWhile_eq_self_of_head isSpace fun first more split => ?_
    obtain rfl : c = first := by
      rw [pathShape] at split
      exact (List.cons.inj split).1
    cases root : allowedRoot raw with
    | nil =>
        rw [root, sentShape] at under
        rcases under with same | ⟨tail, below⟩
        · simp at same
        · exact absurd (List.cons.inj below).1.symm other
    | cons head more =>
        obtain ⟨tail, begins⟩ := under.isPrefix
        rw [root, sentShape] at begins
        obtain rfl := (List.cons.inj begins).1
        exact allowedRoot_head root
  refine ⟨left, ?_⟩
  by_cases right : rstrip path = path
  · exact .inl right
  cases slash : endsWith (rstrip path) ['/'] with
  | true => exact .inr (.inl rfl)
  | false =>
      -- The blanks at the end are sent, so the prefix lies above them or has them.
      refine .inr (.inr ?_)
      obtain ⟨blanks, whole, blank⟩ := rstrip_split path
      have pathSent := prefix_sent shape right
      have noSlash : path ≠ allowedRoot raw ++ ['/'] := fun same =>
        right (by rw [same]; exact rstrip_slash _)
      rcases under with same | below
      · exact .inr ⟨raw, member, live, same ▸ pathSent, .inl same⟩
      rcases List.prefix_or_prefix_of_prefix below pathSent with inside | longer
      · have core : rstrip path <+: path := ⟨blanks, whole.symm⟩
        rcases List.prefix_or_prefix_of_prefix inside core with above | ⟨run, split⟩
        · exact .inl ⟨raw, member, live, above⟩
        · have within : run <+: blanks := by
            rw [← split] at inside
            exact (List.prefix_append_right_inj (rstrip path)).mp (whole ▸ inside)
          cases run using List.reverseRecOn with
          | nil => exact .inl ⟨raw, member, live, ⟨[], by simpa using split.symm⟩⟩
          | append_singleton init last =>
              obtain ⟨-, isLast⟩ := List.append_inj' ((List.append_assoc ..).trans split) rfl
              obtain rfl := List.singleton_inj.mp isLast
              have bad := blank '/' (within.subset (by simp))
              simp [isSpace_slash] at bad
      · rcases List.prefix_concat_iff.mp longer with same | shorter
        · exact absurd same noSlash
        · exact .inr ⟨raw, member, live, shorter, .inr below⟩

theorem covered_iff_blanksHarmless (accepted : GateAccepts prefixes path)
    (shape : SentFor path sent) : Covered prefixes sent ↔ BlanksHarmless prefixes path sent :=
  ⟨blanksHarmless_of_covered accepted shape, covered_of_blanksHarmless accepted shape⟩

end Accepted

section Substituted

variable {prefixes : List Json} {effective : Str}

theorem entry_relative {raw path : Str} (relative : ∀ rest, strip path ≠ '/' :: rest)
    (live : rstripSlash (strip path) ≠ [])
    (under : SegmentUnder '/' (allowedRoot raw) (rstripSlash (strip path))) (rest : Str) :
    strip raw ≠ '/' :: rest := by
  intro absolute
  have begins := strip_prefix_root raw
  rw [absolute] at begins
  have head : ∃ tail, rstripSlash (strip path) = '/' :: tail := by
    rcases under with same | below
    · rw [← same] at begins
      cases shape : rstripSlash (strip path) with
      | nil => exact absurd shape live
      | cons c tail =>
          rw [shape] at begins
          exact ⟨tail, by rw [(List.cons_prefix_cons.mp begins).1]⟩
    · obtain ⟨tail, shape⟩ := begins.trans below
      exact ⟨rest ++ tail, shape.symm⟩
  obtain ⟨tail, shape⟩ := head
  obtain ⟨tail', full⟩ := rdropWhile_head isSlash shape
  exact relative tail' full

theorem mem_prefixNorms {raw : Str} (member : .str raw ∈ prefixes)
    (live : prefixAsListPath raw ≠ []) : prefixAsListPath raw ∈ prefixNorms prefixes :=
  List.mem_filterMap.mpr ⟨.str raw, member, by simp [live]⟩

/-- The single prefix that is listed for an empty path has no outer blanks, or
the gate refuses it. -/
theorem strip_of_substituted (single : prefixNorms prefixes = [effective])
    (accepted : GateAccepts prefixes effective) : strip effective = effective := by
  obtain ⟨nonempty, relative, live, raw, member, rawLive, under⟩ := accepted.shape
  have relativeRaw := entry_relative relative live under
  obtain ⟨leading, trailing, split, slashesLeft, slashesRight⟩ :=
    trimBy_split isSlash (strip raw)
  change strip raw = leading ++ prefixAsListPath raw ++ trailing at split
  have noLeading : leading = [] := by
    cases leading with
    | nil => rfl
    | cons first more =>
        obtain rfl := isSlash_iff.mp (slashesLeft first (by simp))
        exact absurd split (relativeRaw _)
  have shown : prefixAsListPath raw ≠ [] := by
    intro empty
    rw [noLeading, empty, List.nil_append, List.nil_append] at split
    cases trailing with
    | nil => exact rawLive split
    | cons first more =>
        obtain rfl := isSlash_iff.mp (slashesRight first (by simp))
        exact relativeRaw _ split
  have normal : prefixAsListPath raw = effective := by
    simpa [single] using mem_prefixNorms member shown
  rw [noLeading, normal, List.nil_append] at split
  cases trailing using List.reverseRecOn with
  | nil =>
      have whole : strip raw = effective := by simpa using split
      rw [← whole]
      exact trimBy_idempotent isSpace raw
  | append_singleton init last =>
      obtain rfl := isSlash_iff.mp (slashesRight last (by simp))
      -- The root has all of `effective`, so trimming cannot have shortened it.
      have root : allowedRoot raw = effective ++ init :=
        allowedRoot_of_slash (by rw [split, List.append_assoc])
      obtain ⟨count, trimmed⟩ := rstripSlash_split (strip effective)
      have within := (under.isPrefix.trans ⟨_, trimmed.symm⟩).length_le
      rw [root, List.length_append] at within
      have long : effective.length ≤ (strip effective).length := by omega
      exact trimBy_eq_self_of_length isSpace long

theorem covered_substituted (single : prefixNorms prefixes = [effective])
    (accepted : GateAccepts prefixes effective) (rest : Str) :
    Covered prefixes (effective ++ '/' :: rest) := by
  obtain ⟨left, right⟩ := (trimBy_eq_self_iff isSpace).mp (strip_of_substituted single accepted)
  exact covered_of_trimmed accepted (.below rest) left right

end Substituted

section Restricted

variable {config : Dict} {user : UserDict} {role : Option Str} {prefixes : List Json}

/-- The role that a request is validated for is an entry with these prefixes. -/
def RestrictedTo (config : Dict) (user : UserDict) (role : Option Str) (prefixes : List Json) :
    Prop :=
  ∃ validated entry, validateRoleAccess role user = .ok validated ∧
    findRole config validated = .ok (some entry) ∧
    roleAllowedPrefixes entry = .ok (some prefixes)

theorem StorageCheck.gateAccepts {entry : Dict} {bucket key : Str}
    (check : StorageCheck config entry bucket key)
    (read : roleAllowedPrefixes entry = .ok (some prefixes)) : GateAccepts prefixes key := by
  obtain ⟨found, same, granted⟩ := check.keyAllowed
  rw [read] at same
  exact granted prefixes (Except.ok.inj same).symm

theorem gateAccepts_of_validated {bucket key : Str} {validated : Option Str}
    (restricted : RestrictedTo config user role prefixes)
    (accepted : validateStorageAccess config role bucket user key = .ok validated) :
    GateAccepts prefixes key := by
  obtain ⟨expected, entry, checked, found, read⟩ := restricted
  obtain ⟨checked', found', searched, grants⟩ := validateStorageAccess_ok_iff.mp accepted
  rw [checked] at checked'
  obtain rfl := Except.ok.inj checked'
  rw [found] at searched
  exact (grants entry (Except.ok.inj searched).symm).gateAccepts read

theorem prepareListPath_restricted {unicode : Unicode} {bucket path : Str} {listing : ListEntry}
    (restricted : RestrictedTo config user role prefixes)
    (prepared : prepareListPath unicode config role bucket user path = .ok listing)
    (real : listing.virtualDirectories = none) :
    GateAccepts prefixes listing.effectivePath ∧
      (listing.effectivePath = path ∧ path ≠ [] ∨
        path = [] ∧ prefixNorms prefixes = [listing.effectivePath]) := by
  obtain ⟨checked', found', searched, grants⟩ := prepareListPath_grants prepared real
  obtain ⟨validated, entry, checked, found, read⟩ := restricted
  rw [checked] at checked'
  have same := Except.ok.inj checked'
  rw [← same, found] at searched
  have accepted := (grants entry (Except.ok.inj searched).symm).gateAccepts read
  refine ⟨accepted, ?_⟩
  simp only [prepareListPath, checked, found, result_bind_ok] at prepared
  obtain ⟨allowed, -, rest⟩ := bind_eq_ok_iff.mp prepared
  obtain ⟨_, -, rest⟩ := bind_eq_ok_iff.mp rest
  simp only [read, result_bind_ok] at rest
  by_cases empty : path = []
  · subst empty
    simp only [List.isEmpty_nil, if_true] at rest
    split at rest
    · obtain ⟨_, -, rest⟩ := bind_eq_ok_iff.mp rest
      simp [raise] at rest
    · next effective single =>
        obtain ⟨_, -, rest⟩ := bind_eq_ok_iff.mp rest
        obtain rfl := Except.ok.inj rest
        exact .inr ⟨rfl, single⟩
    · obtain rfl := Except.ok.inj rest
      simp at real
  · have shown : path.isEmpty = false := by simpa using empty
    simp only [shown, Bool.false_eq_true, if_false] at rest
    obtain ⟨_, -, rest⟩ := bind_eq_ok_iff.mp rest
    obtain rfl := Except.ok.inj rest
    exact .inl ⟨rfl, empty⟩

end Restricted

end S3Manager.Access
