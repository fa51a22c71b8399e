import Mathlib.Data.List.Dedup
import S3Manager.Access.PrefixCover

/-! Whether the list entry resolution and the gate agree on the prefixes of a role:
what the bucket root offers, what can be opened, and what is reached. -/

set_option autoImplicit false

namespace S3Manager.Access

open Python Utils Library

section Listable

/-- The texts that the gate takes for a role with these prefixes: relative, without dots,
a scheme or control characters, and under a prefix once they are trimmed. -/
structure Listable (entries : List Str) (listPath : Str) : Prop where
  named : listPath ≠ []
  noScheme : ¬ [':', '/', '/'] <:+: listPath
  noDots : ¬ ['.', '.'] <:+: strip listPath
  relative : ∀ rest, strip listPath ≠ '/' :: rest
  printable : ∀ c ∈ rstripSlash (strip listPath), isControl c = false
  visible : rstripSlash (strip listPath) ≠ []
  covered : ∃ raw ∈ entries, strip raw ≠ [] ∧
    SegmentUnder '/' (allowedRoot raw) (rstripSlash (strip listPath))

variable {entries : List Str} {path : Str}

theorem anyPrefixAllows_strings (key : Str) (entries : List Str) :
    anyPrefixAllows key (entries.map .str) = .ok (entries.any (keyWithinPrefix key)) := by
  induction entries with
  | nil => rfl
  | cons raw rest ih =>
      simp only [List.map_cons, anyPrefixAllows, keyWithinAllowedPrefix, result_bind_ok, ih,
        List.any_cons]
      cases keyWithinPrefix key raw <;> rfl

theorem normalizeAccessKey_ok_iff {key : Str} (live : path ≠ []) :
    normalizeAccessKey path = .ok key ↔
      ¬ [':', '/', '/'] <:+: path ∧ sanitizePath path = .ok key := by
  have shown : path.isEmpty = false := by simpa using live
  by_cases scheme : [':', '/', '/'] <:+: path
  · have found : containsSub path [':', '/', '/'] = true := containsSub_iff.mpr scheme
    simp [normalizeAccessKey, shown, found, scheme, raise]
  · have absent : containsSub path [':', '/', '/'] = false := by
      rw [← Bool.not_eq_true, containsSub_iff]
      exact scheme
    simp only [normalizeAccessKey, shown, absent, Bool.false_eq_true, if_false, scheme,
      not_false_eq_true, true_and]
    cases sanitizePath path <;> simp

theorem gateAccepts_iff_listable : GateAccepts (entries.map .str) path ↔ Listable entries path := by
  constructor
  · rintro ⟨key, normal, allows⟩
    rw [anyPrefixAllows_strings] at allows
    obtain ⟨raw, member, within⟩ := List.any_eq_true.mp (Except.ok.inj allows)
    obtain ⟨visible, live, under⟩ := keyWithinPrefix_iff.mp within
    have named : path ≠ [] := by
      rintro rfl
      obtain rfl : ([] : Str) = key := Except.ok.inj normal
      exact visible rfl
    obtain ⟨noScheme, sanitized⟩ := (normalizeAccessKey_ok_iff named).mp normal
    obtain ⟨noDots, relative, rfl, printable⟩ := (sanitizePath_eq_ok_iff named).mp sanitized
    exact ⟨named, noScheme, noDots, relative, printable, visible, raw, member, live, under⟩
  · intro listable
    obtain ⟨raw, member, live, under⟩ := listable.covered
    refine ⟨rstripSlash (strip path), ?_, ?_⟩
    · exact (normalizeAccessKey_ok_iff listable.named).mpr ⟨listable.noScheme,
        (sanitizePath_eq_ok_iff listable.named).mpr
          ⟨listable.noDots, listable.relative, rfl, listable.printable⟩⟩
    · rw [anyPrefixAllows_strings]
      exact congrArg Except.ok (List.any_eq_true.mpr
        ⟨raw, member, keyWithinPrefix_iff.mpr ⟨listable.visible, live, under⟩⟩)

end Listable

section Plain

variable {entries : List Str} {raw name : Str}

/-- A prefix that is stored as a clean path, with or without a slash after it, is listable. -/
theorem listable_of_clean (member : raw ∈ entries) (stored : raw = name ∨ raw = name ++ ['/'])
    (named : name ≠ []) (trimmed : strip name = name) (relative : ∀ rest, name ≠ '/' :: rest)
    (closed : rstripSlash name = name) (noScheme : ¬ [':', '/', '/'] <:+: name)
    (noDots : ¬ ['.', '.'] <:+: name) (printable : ∀ c ∈ name, isControl c = false) :
    Listable entries (prefixAsListPath raw) := by
  have inner : stripSlash name = name := by rw [stripSlash_of_head relative, closed]
  have noSlash : endsWith name ['/'] = false := by
    rw [← Bool.not_eq_true, endsWith_slash_iff]
    rintro ⟨init, ends⟩
    exact rstripSlash_last (closed.trans ends)
  have shape : prefixAsListPath raw = name ∧ allowedRoot raw = name ∧ strip raw ≠ [] := by
    obtain rfl | rfl := stored
    · refine ⟨?_, ?_, ?_⟩
      · rw [prefixAsListPath, trimmed, inner]
      · simp [allowedRoot, trimmed, noSlash]
      · rw [trimmed]
        exact named
    · have left : (name ++ ['/']).dropWhile isSpace = name ++ ['/'] := by
        have kept := ((trimBy_eq_self_iff isSpace).mp trimmed).1
        rw [dropWhile_append_of_live isSpace _ (by rwa [kept]), kept]
      have whole : strip (name ++ ['/']) = name ++ ['/'] :=
        (trimBy_eq_self_iff isSpace).mpr ⟨left, rstrip_slash name⟩
      have rootless : ∀ rest, name ++ ['/'] ≠ '/' :: rest := by
        intro rest same
        cases name with
        | nil => exact named rfl
        | cons first more => exact relative more (by rw [(List.cons.inj same).1])
      refine ⟨?_, allowedRoot_of_slash whole, ?_⟩
      · rw [prefixAsListPath, whole, stripSlash_of_head rootless]
        exact (rdropWhile_concat_blank isSlash name (by simp)).trans closed
      · rw [whole]
        simp
  obtain ⟨listPath, root, live⟩ := shape
  rw [listPath]
  refine ⟨named, noScheme, ?_, ?_, ?_, ?_, raw, member, live, ?_⟩
  · rwa [trimmed]
  · rwa [trimmed]
  · rwa [trimmed, closed]
  · rwa [trimmed, closed]
  · rw [trimmed, closed, root]
    exact .refl name

end Plain

section Offered

variable {unicode : Unicode} {config entry : Dict} {user : UserDict} {role validated : Option Str}
  {bucket path : Str} {entries : List Str}

/-- The role that a request is validated for is an entry with these prefixes, and the
bucket is one it may use. -/
structure Granted (config : Dict) (user : UserDict) (role validated : Option Str)
    (entry : Dict) (bucket : Str) (entries : List Str) : Prop where
  checked : validateRoleAccess role user = .ok validated
  found : findRole config validated = .ok (some entry)
  read : roleAllowedPrefixes entry = .ok (some (entries.map .str))
  bucketAllowed : ∃ allowed, roleAllowedBuckets entry config = .ok allowed ∧
    ∀ list, allowed = some list → .str bucket ∈ list

theorem Granted.gate (granted : Granted config user role validated entry bucket entries)
    {asked : Option Str} (same : validateRoleAccess asked user = .ok validated) (key : Str) :
    validateStorageAccess config asked bucket user key = .ok validated ↔ Listable entries key := by
  rw [validateStorageAccess_ok_iff, ← gateAccepts_iff_listable]
  constructor
  · rintro ⟨-, found, searched, grants⟩
    rw [granted.found] at searched
    exact (grants entry (Except.ok.inj searched).symm).gateAccepts granted.read
  · intro accepted
    refine ⟨same, some entry, granted.found, fun other eq => ?_⟩
    obtain rfl := Option.some.inj eq
    refine ⟨granted.bucketAllowed, _, granted.read, fun list eq => ?_⟩
    obtain rfl := Option.some.inj eq
    exact accepted

theorem Granted.prepare_path (granted : Granted config user role validated entry bucket entries)
    (live : path ≠ []) {listing : ListEntry} :
    prepareListPath unicode config role bucket user path = .ok listing ↔
      Listable entries path ∧ listing = ⟨path, none, validated⟩ := by
  obtain ⟨allowed, buckets, member⟩ := granted.bucketAllowed
  have gate := granted.gate (validateRoleAccess_validated granted.checked) path
  have shown : path.isEmpty = false := by simpa using live
  simp only [prepareListPath, granted.checked, granted.found, buckets,
    checkBucket_ok_iff.mpr member, granted.read, result_bind_ok, shown, Bool.false_eq_true, if_false,
    bind_eq_ok_iff]
  constructor
  · rintro ⟨again, accepted, same⟩
    obtain ⟨checked, -⟩ := validateStorageAccess_ok_iff.mp accepted
    rw [validateRoleAccess_validated granted.checked] at checked
    obtain rfl := Except.ok.inj checked
    exact ⟨gate.mp accepted, (Except.ok.inj same).symm⟩
  · rintro ⟨listable, rfl⟩
    exact ⟨validated, gate.mpr listable, rfl⟩

/-- The root of the bucket, by the number of prefixes that name a folder. -/
theorem Granted.prepare_root (granted : Granted config user role validated entry bucket entries)
    {listing : ListEntry} :
    prepareListPath unicode config role bucket user [] = .ok listing ↔
      (∃ name, prefixNorms (entries.map .str) = [name] ∧ Listable entries name ∧
        listing = ⟨name, none, validated⟩) ∨
      2 ≤ (prefixNorms (entries.map .str)).length ∧ listing = ⟨[],
        some ((sortedNames unicode (prefixNorms (entries.map .str))).map .directory), validated⟩ := by
  obtain ⟨allowed, buckets, member⟩ := granted.bucketAllowed
  simp only [prepareListPath, granted.checked, granted.found, buckets,
    checkBucket_ok_iff.mpr member, granted.read, result_bind_ok, List.isEmpty_nil, if_true]
  generalize prefixNorms (entries.map .str) = norms
  cases norms with
  | nil =>
      cases validateStorageAccess config validated bucket user [] <;> simp [raise]
  | cons name rest =>
      have gate := granted.gate (validateRoleAccess_validated granted.checked) name
      cases rest with
      | nil =>
          simp only [bind_eq_ok_iff]
          constructor
          · rintro ⟨again, accepted, same⟩
            obtain ⟨checked, -⟩ := validateStorageAccess_ok_iff.mp accepted
            rw [validateRoleAccess_validated granted.checked] at checked
            obtain rfl := Except.ok.inj checked
            exact .inl ⟨name, rfl, gate.mp accepted, (Except.ok.inj same).symm⟩
          · rintro (⟨other, same, listable, rfl⟩ | ⟨short, -⟩)
            · obtain rfl : name = other := by simpa using same
              exact ⟨validated, gate.mpr listable, rfl⟩
            · simp at short
      | cons second more =>
          simp only [Except.ok.injEq]
          constructor
          · rintro rfl
            exact .inr ⟨by simp, rfl⟩
          · rintro (⟨other, same, -⟩ | ⟨-, rfl⟩)
            · simp at same
            · rfl

theorem mem_norms {name : Str} :
    name ∈ prefixNorms (entries.map .str) ↔
      name ≠ [] ∧ ∃ raw ∈ entries, prefixAsListPath raw = name := by
  rw [prefixNorms, List.filterMap_map]
  simp only [List.mem_filterMap, Function.comp, List.isEmpty_iff]
  constructor
  · rintro ⟨raw, member, same⟩
    split_ifs at same with empty
    · obtain rfl := Option.some.inj same
      exact ⟨empty, raw, member, rfl⟩
  · rintro ⟨live, raw, member, rfl⟩
    exact ⟨raw, member, if_neg live⟩

theorem mem_sortedNames {names : List Str} {name : Str} :
    name ∈ sortedNames unicode names ↔ name ∈ names := by
  rw [sortedNames, List.mem_mergeSort, List.mem_dedup]

variable (unicode config user role bucket) in
/-- The paths that are reached from the bucket root over offered entries; `shown` is
what a listing of S3 itself offers in a folder. -/
inductive Reached (shown : Str → Str → Prop) : Str → Prop where
  | root {listing : ListEntry} :
      prepareListPath unicode config role bucket user [] = .ok listing →
      listing.virtualDirectories = none → Reached shown listing.effectivePath
  | virtual {listing again : ListEntry} {directories : List FileEntry} {directory : FileEntry} :
      prepareListPath unicode config role bucket user [] = .ok listing →
      listing.virtualDirectories = some directories → directory ∈ directories →
      prepareListPath unicode config role bucket user directory.name = .ok again →
      Reached shown directory.name
  | inside {folder name : Str} {again : ListEntry} : Reached shown folder → shown folder name →
      prepareListPath unicode config role bucket user (folder ++ '/' :: name) = .ok again →
      Reached shown (folder ++ '/' :: name)

variable (unicode config user role bucket entries) in
/-- The list entry resolution and the gate agree. -/
structure ListingsAgree (shown : Str → Str → Prop) : Prop where
  effective : ∀ path listing, prepareListPath unicode config role bucket user path = .ok listing →
    listing.virtualDirectories = none →
      ∃ again, validateStorageAccess config role bucket user listing.effectivePath = .ok again
  virtual : ∀ path listing directories,
    prepareListPath unicode config role bucket user path = .ok listing →
    listing.virtualDirectories = some directories → ∀ directory ∈ directories,
      ∃ again, prepareListPath unicode config role bucket user directory.name = .ok again
  reachable : ∀ raw ∈ entries, strip raw ≠ [] →
    Reached unicode config user role bucket shown (prefixAsListPath raw)

theorem Granted.listable_of_reached
    (granted : Granted config user role validated entry bucket entries) {shown : Str → Str → Prop}
    (reached : Reached unicode config user role bucket shown path) : Listable entries path := by
  cases reached with
  | @root listing prepared real =>
      obtain ⟨name, -, listable, rfl⟩ | ⟨-, rfl⟩ := granted.prepare_root.mp prepared
      · exact listable
      · cases real
  | @virtual listing again directories directory prepared virtual member opened =>
      obtain ⟨name, -, -, rfl⟩ | ⟨-, rfl⟩ := granted.prepare_root.mp prepared
      · cases virtual
      · obtain rfl := Option.some.inj virtual
        obtain ⟨name, sorted, rfl⟩ := List.mem_map.mp member
        have live : name ≠ [] := (mem_norms.mp (mem_sortedNames.mp sorted)).1
        exact ((granted.prepare_path live).mp opened).1
  | inside reached offered opened => exact ((granted.prepare_path (by simp)).mp opened).1

theorem listings_agree_iff (unicode : Unicode) (shown : Str → Str → Prop)
    (granted : Granted config user role validated entry bucket entries) :
    ListingsAgree unicode config user role bucket entries shown ↔
      ∀ raw ∈ entries, strip raw ≠ [] → Listable entries (prefixAsListPath raw) := by
  constructor
  · intro agree raw member live
    exact granted.listable_of_reached (agree.reachable raw member live)
  · intro listable
    have opens (name : Str) (listed : name ∈ prefixNorms (entries.map .str)) :
        Listable entries name := by
      obtain ⟨live, raw, member, rfl⟩ := mem_norms.mp listed
      exact listable raw member fun blank => live (by rw [prefixAsListPath, blank]; rfl)
    refine ⟨?_, ?_, ?_⟩
    · intro path listing prepared real
      by_cases empty : path = []
      · subst empty
        obtain ⟨name, -, accepted, rfl⟩ | ⟨-, rfl⟩ := granted.prepare_root.mp prepared
        · exact ⟨validated, (granted.gate granted.checked name).mpr accepted⟩
        · cases real
      · obtain ⟨accepted, rfl⟩ := (granted.prepare_path empty).mp prepared
        exact ⟨validated, (granted.gate granted.checked path).mpr accepted⟩
    · intro path listing directories prepared virtual directory member
      obtain ⟨rfl, -⟩ := prepareListPath_virtual prepared virtual
      obtain ⟨name, -, -, rfl⟩ | ⟨-, rfl⟩ := granted.prepare_root.mp prepared
      · cases virtual
      · obtain rfl := Option.some.inj virtual
        obtain ⟨name, sorted, rfl⟩ := List.mem_map.mp member
        have listed := mem_sortedNames.mp sorted
        exact ⟨_, (granted.prepare_path (mem_norms.mp listed).1).mpr ⟨opens name listed, rfl⟩⟩
    · intro raw member live
      have accepted := listable raw member live
      have listed : prefixAsListPath raw ∈ prefixNorms (entries.map .str) :=
        mem_norms.mpr ⟨accepted.named, raw, member, rfl⟩
      cases shape : prefixNorms (entries.map .str) with
      | nil =>
          rw [shape] at listed
          cases listed
      | cons first rest =>
          cases rest with
          | nil =>
              obtain rfl : prefixAsListPath raw = first := by simpa [shape] using listed
              exact .root (granted.prepare_root.mpr (.inl ⟨_, shape, accepted, rfl⟩)) rfl
          | cons second more =>
              have several : 2 ≤ (prefixNorms (entries.map .str)).length := by simp [shape]
              have offered : FileEntry.directory (prefixAsListPath raw) ∈
                  (sortedNames unicode (prefixNorms (entries.map .str))).map .directory :=
                List.mem_map_of_mem (mem_sortedNames.mpr listed)
              exact .virtual (granted.prepare_root.mpr (.inr ⟨several, rfl⟩)) rfl offered
                ((granted.prepare_path accepted.named).mpr ⟨accepted, rfl⟩)

def standsEntry (entries : List Str) : Dict :=
  [(lit "name", .str (lit "stand")), (lit "type", .str (lit "default")),
    (lit "allowed_prefixes", .arr (entries.map .str))]

def standsConfig (entries : List Str) : Dict :=
  [(lit "roles", .arr [.obj (standsEntry entries)])]

def standsUser : UserDict where
  isAdmin := false
  allowedRoles := [lit "stand"]
  defaultRole := none

theorem standsConfig_granted (entries : List Str) :
    Granted (standsConfig entries) standsUser (some (lit "stand")) (some (lit "stand"))
      (standsEntry entries) (lit "data") entries where
  checked := rfl
  found := rfl
  read := rfl
  bucketAllowed := ⟨none, rfl, nofun⟩

/-- Two folders, one of them stored with a slash after it. -/
theorem listings_agree_stands :
    ListingsAgree .ascii (standsConfig [lit "a/", lit "b"]) standsUser (some (lit "stand"))
        (lit "data") [lit "a/", lit "b"] (fun _ _ => True) ↔
      ∀ raw ∈ [lit "a/", lit "b"], strip raw ≠ [] →
        Listable [lit "a/", lit "b"] (prefixAsListPath raw) :=
  listings_agree_iff .ascii _ (standsConfig_granted _)

/-- A prefix with a slash in front is offered without it, and refused. -/
theorem leading_slash_offered_refused :
    ¬ ∀ (unicode : Unicode) (config entry : Dict) (user : UserDict) (role validated : Option Str)
        (bucket : Str) (entries : List Str) (shown : Str → Str → Prop),
        Granted config user role validated entry bucket entries →
        ListingsAgree unicode config user role bucket entries shown := by
  intro always
  have agree := always .ascii _ _ _ _ _ _ [lit "/a", lit "b"] (fun _ _ => False)
    (standsConfig_granted _)
  have offered := agree.virtual [] ⟨[], some _, some (lit "stand")⟩ _
    ((standsConfig_granted _).prepare_root.mpr (.inr ⟨by decide, rfl⟩)) rfl
    (.directory (lit "a")) (List.mem_map_of_mem (mem_sortedNames.mpr (by decide)))
  obtain ⟨again, opened⟩ := offered
  obtain ⟨listable, -⟩ := ((standsConfig_granted _).prepare_path (by decide)).mp opened
  obtain ⟨raw, member, -, under⟩ := listable.covered
  obtain rfl | rfl : raw = lit "/a" ∨ raw = lit "b" := by simpa using member
  · obtain same | below := under
    · exact absurd same (by decide)
    · exact absurd below (by decide)
  · obtain same | below := under
    · exact absurd same (by decide)
    · exact absurd below (by decide)

end Offered

end S3Manager.Access
