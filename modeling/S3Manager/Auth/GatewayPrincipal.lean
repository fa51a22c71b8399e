import Mathlib.Data.Bool.AllAny
import S3Manager.Auth.Session
import S3Manager.Library.Distinct
import S3Manager.Library.Segments

/-! The principal that the forwarded groups make: how a header is read back into the
names it was joined from, and what these names grant. -/

set_option autoImplicit false

namespace S3Manager.Auth

open Python Access Library

section Header

def isGroupSeparator (c : Char) : Bool :=
  c == '|' || c == ',' || c == ';'

/-- A header of group names, with any separator between two of them. -/
inductive Joined : List Str → Str → Prop where
  | none : Joined [] []
  | one (name : Str) : Joined [name] name
  | more {name next header : Str} {rest : List Str} {separator : Char} :
      isGroupSeparator separator = true → Joined (next :: rest) header →
      Joined (name :: next :: rest) (name ++ separator :: header)

/-- A name without separators or surrounding blanks. -/
structure GroupName (name : Str) : Prop where
  plain : ∀ c ∈ name, isGroupSeparator c = false
  trimmed : strip name = name

/-- `raw.replace(";", "|").replace(",", "|")` -/
def unifySeparators (raw : Str) : Str :=
  raw.map fun c => if c = ';' ∨ c = ',' then '|' else c

variable {names : List Str} {name header : Str}

theorem parseAuthentikGroups_eq (raw : Option Str) :
    parseAuthentikGroups raw =
      ((((unifySeparators (raw.getD [])).splitOn '|').map strip).filter
        fun name => !name.isEmpty).eraseDups :=
  collect_eq strip List.isEmpty _

theorem unify_plain (plain : ∀ c ∈ name, isGroupSeparator c = false) :
    unifySeparators name = name := by
  refine (List.map_congr_left fun c member => ?_).trans (List.map_id name)
  have other := plain c member
  simp only [isGroupSeparator, Bool.or_eq_false_iff, beq_eq_false_iff_ne] at other
  rw [if_neg (by simp [other.2, other.1.2])]
  rfl

theorem unify_separator {separator : Char} (separates : isGroupSeparator separator = true) :
    (if separator = ';' ∨ separator = ',' then '|' else separator) = '|' := by
  simp only [isGroupSeparator, Bool.or_eq_true, beq_iff_eq] at separates
  rcases separates with (rfl | rfl) | rfl <;> rfl

theorem Joined.unified (joined : Joined names header)
    (plain : ∀ name ∈ names, ∀ c ∈ name, isGroupSeparator c = false) :
    unifySeparators header = joinOn '|' names := by
  induction joined with
  | none => rfl
  | one name => rw [joinOn_one, unify_plain (plain name (by simp))]
  | @more name next header rest separator separates _ ih =>
      have later := ih fun other member => plain other (by simp [member])
      have first := unify_plain (plain name (by simp))
      rw [joinOn_cons name (by simp), ← later]
      simp only [unifySeparators, List.map_append, List.map_cons,
        unify_separator separates] at first ⊢
      rw [first]

/-- Reading a header gives back the names it was joined from, each once. -/
theorem parse_joined (joined : Joined names header) (named : ∀ name ∈ names, GroupName name) :
    parseAuthentikGroups (some header) = (names.filter fun name => !name.isEmpty).eraseDups := by
  rw [parseAuthentikGroups_eq, Option.getD_some,
    joined.unified fun name member => (named name member).plain]
  by_cases empty : names = []
  · subst empty
    rfl
  have plain : ∀ name ∈ names, '|' ∉ name := fun name member bar =>
    absurd ((named name member).plain '|' bar) (by decide)
  have trimmed : names.map strip = names :=
    (List.map_congr_left fun name member => (named name member).trimmed).trans (List.map_id names)
  rw [splitOn_joinOn plain empty, trimmed]

end Header

section Rights

/-- `role_names_from_config` over the roles of a config. -/
def configuredNames (roles : Json) : Result (List Json) := do
  let roles ← iterate roles
  roleNamesFromConfig roles

/-- The fields of a principal that access decisions read. -/
structure Rights where
  isAdmin : Bool
  allowedRoles : List Json
  defaultRole : Option Json

def Principal.rights (principal : Principal) : Rights :=
  ⟨principal.isAdmin, principal.allowedRoles, principal.defaultRole⟩

variable {username : Str} {groups others : List Str} {roles : Json} {principal : Principal}

theorem buildPrincipal_ok_iff : buildPrincipal username groups roles = .ok principal ↔
    ∃ names, configuredNames roles = .ok names ∧
      principal = ⟨username, groups.contains adminGroup, resolveAllowedRoles groups names,
        (resolveAllowedRoles groups names).head?, groups, .null⟩ := by
  simp only [buildPrincipal, configuredNames, bind_eq_ok_iff, Except.ok.injEq]
  constructor
  · rintro ⟨entries, iterated, names, configured, rfl⟩
    exact ⟨names, ⟨entries, iterated, configured⟩, rfl⟩
  · rintro ⟨names, ⟨entries, iterated, configured⟩, rfl⟩
    exact ⟨entries, iterated, names, configured, rfl⟩

theorem buildPrincipal_error {exc : PyError} (unread : configuredNames roles = .error exc) :
    buildPrincipal username groups roles = .error exc := by
  unfold configuredNames at unread
  unfold buildPrincipal
  cases iterated : iterate roles with
  | error other =>
      rw [iterated] at unread
      cases unread
      rfl
  | ok entries =>
      rw [iterated] at unread
      have failed : roleNamesFromConfig entries = .error exc := unread
      rw [result_bind_ok, failed]
      rfl

/-- Roles that are a list of objects can be read: a role without a name is passed over. -/
theorem configuredNames_objects (entries : List Dict) :
    configuredNames (.arr (entries.map .obj)) =
      .ok ((entries.map fun role => dictGet role "name").filter Json.truthy) := by
  show roleNamesFromConfig (entries.map .obj) = _
  induction entries with
  | nil => rfl
  | cons role rest ih =>
      rw [List.map_cons, roleNamesFromConfig, ih, result_bind_ok, List.map_cons, List.filter_cons]

/-- A configured name is never an empty text. -/
theorem configured_truthy {entries : List Json} {names : List Json}
    (configured : roleNamesFromConfig entries = .ok names) : ∀ name ∈ names, name.truthy = true := by
  induction entries generalizing names with
  | nil =>
      obtain rfl := Except.ok.inj configured
      simp
  | cons entry rest ih =>
      cases entry with
      | obj role =>
          obtain ⟨others, later, here⟩ := bind_eq_ok_iff.mp configured
          obtain rfl := Except.ok.inj here
          intro name member
          split at member
          · next shown =>
              obtain rfl | inRest := List.mem_cons.mp member
              · exact shown
              · exact ih later name inRest
          · exact ih later name member
      | null | bool _ | int _ | float _ | str _ | arr _ => cases configured

theorem granted_iff {name : Json} :
    (groups.any fun group => decide (name = .str group)) = true ↔ ∃ group ∈ groups, name = .str group := by
  simp

theorem granted_congr (same : ∀ group, group ∈ groups ↔ group ∈ others) (name : Json) :
    (groups.any fun group => decide (name = .str group)) =
      others.any fun group => decide (name = .str group) := by
  rw [Bool.eq_iff_iff, granted_iff, granted_iff]
  exact exists_congr fun group => and_congr_left' (same group)

theorem contains_congr (same : ∀ group, group ∈ groups ↔ group ∈ others) (group : Str) :
    groups.contains group = others.contains group := by
  rw [Bool.eq_iff_iff, List.contains_iff_mem, List.contains_iff_mem]
  exact same group

theorem resolve_congr (same : ∀ group, group ∈ groups ↔ group ∈ others) (names : List Json) :
    resolveAllowedRoles groups names = resolveAllowedRoles others names := by
  simp only [resolveAllowedRoles, contains_congr same, granted_congr same]

/-- More groups grant more: the admin group grants every name. -/
theorem resolve_mono (more : groups ⊆ others) (names : List Json) :
    (resolveAllowedRoles groups names).Sublist (resolveAllowedRoles others names) := by
  unfold resolveAllowedRoles
  by_cases admin : adminGroup ∈ others
  · rw [if_pos (List.contains_iff_mem.mpr admin)]
    split
    · exact List.Sublist.refl names
    · exact List.filter_sublist
  · have notBefore : adminGroup ∉ groups := fun member => admin (more member)
    rw [if_neg (by simpa using notBefore), if_neg (by simpa using admin)]
    refine List.monotone_filter_right names fun name granted => ?_
    obtain ⟨group, member, same⟩ := granted_iff.mp granted
    exact granted_iff.mpr ⟨group, more member, same⟩

end Rights

section Law

variable {names : List Str} {header : Str}

/-- The groups that are read are the names themselves, apart from empty ones. -/
theorem mem_parsed (joined : Joined names header) (named : ∀ name ∈ names, GroupName name)
    (group : Str) : group ∈ parseAuthentikGroups (some header) ↔ group ∈ names ∧ group ≠ [] := by
  rw [parse_joined joined named, List.mem_eraseDups, List.mem_filter]
  simp

/-- What a gateway's header of groups makes of a user, whatever the config. There is a principal
whenever the roles can be read, as a list of objects can; else there is none for any groups. -/
theorem gateway_principal_law (username : Str) (roles : Json) :
    (∀ entries : List Dict, roles = .arr (entries.map .obj) → configuredNames roles =
      .ok ((entries.map fun role => dictGet role "name").filter Json.truthy)) ∧
      (∀ groups,
        (∀ roleNames, configuredNames roles = .ok roleNames →
          ∃ principal, buildPrincipal username groups roles = .ok principal) ∧
        ∀ exc, configuredNames roles = .error exc →
          buildPrincipal username groups roles = .error exc) ∧
      (∀ names header, Joined names header → (∀ name ∈ names, GroupName name) →
        parseAuthentikGroups (some header) = (names.filter fun name => !name.isEmpty).eraseDups ∧
          ((∀ name ∈ names, name ≠ []) → parseAuthentikGroups (some header) = names.eraseDups) ∧
          (parseAuthentikGroups (some header)).Nodup ∧
          ∀ principal,
            buildPrincipal username (parseAuthentikGroups (some header)) roles = .ok principal →
            (principal.isAdmin = true ↔ adminGroup ∈ names) ∧
              ∃ roleNames, configuredNames roles = .ok roleNames ∧
                (principal.isAdmin = false → principal.allowedRoles =
                  roleNames.filter fun role => names.any fun name => decide (role = .str name))) ∧
      (∀ groups others, (∀ group, group ∈ groups ↔ group ∈ others) →
        (buildPrincipal username groups roles).map Principal.rights =
          (buildPrincipal username others roles).map Principal.rights) ∧
      (∀ groups more principal, groups ⊆ more →
        buildPrincipal username groups roles = .ok principal →
          ∃ wider, buildPrincipal username more roles = .ok wider ∧
            principal.allowedRoles.Sublist wider.allowedRoles) ∧
      ∀ groups principal role, buildPrincipal username groups roles = .ok principal →
        principal.defaultRole = some role → role ∈ principal.allowedRoles := by
  refine ⟨?_, fun groups => ⟨fun roleNames configured => ?_, fun exc unread => ?_⟩,
    fun names header joined named => ⟨parse_joined joined named, ?_, ?_, ?_⟩, ?_, ?_, ?_⟩
  · rintro entries rfl
    exact configuredNames_objects entries
  · exact ⟨_, buildPrincipal_ok_iff.mpr ⟨roleNames, configured, rfl⟩⟩
  · exact buildPrincipal_error unread
  · intro live
    rw [parse_joined joined named, List.filter_eq_self.mpr]
    exact fun name member => by simpa using live name member
  · rw [parse_joined joined named]
    exact nodup_eraseDups _
  · intro principal built
    obtain ⟨roleNames, configured, rfl⟩ := buildPrincipal_ok_iff.mp built
    have admin : (parseAuthentikGroups (some header)).contains adminGroup = true ↔
        adminGroup ∈ names := by
      rw [List.contains_iff_mem, mem_parsed joined named]
      exact and_iff_left (by decide)
    refine ⟨admin, roleNames, configured, fun notAdmin => ?_⟩
    have notAdmin : (parseAuthentikGroups (some header)).contains adminGroup = false := notAdmin
    simp only [resolveAllowedRoles, notAdmin, Bool.false_eq_true, if_false]
    refine List.filter_congr fun role member => ?_
    rw [Bool.eq_iff_iff, granted_iff, granted_iff]
    constructor
    · rintro ⟨group, parsed, same⟩
      exact ⟨group, ((mem_parsed joined named group).mp parsed).1, same⟩
    · rintro ⟨name, listed, rfl⟩
      obtain ⟨entries, -, read⟩ := bind_eq_ok_iff.mp configured
      have live := configured_truthy read _ member
      refine ⟨name, (mem_parsed joined named name).mpr ⟨listed, ?_⟩, rfl⟩
      rintro rfl
      cases live
  · intro groups others same
    unfold buildPrincipal
    cases iterate roles with
    | error exc => rfl
    | ok entries =>
        simp only [result_bind_ok]
        cases roleNamesFromConfig entries with
        | error exc => rfl
        | ok names =>
            simp only [result_bind_ok, Except.map, Principal.rights, resolve_congr same,
              contains_congr same]
  · intro groups more principal within built
    obtain ⟨roleNames, configured, rfl⟩ := buildPrincipal_ok_iff.mp built
    exact ⟨_, buildPrincipal_ok_iff.mpr ⟨roleNames, configured, rfl⟩, resolve_mono within roleNames⟩
  · intro groups principal role built default
    obtain ⟨roleNames, -, rfl⟩ := buildPrincipal_ok_iff.mp built
    exact List.mem_of_head? default

def daynaRoles : List Dict :=
  [[(lit "name", .str (lit "archive"))], [(lit "name", .str (lit "dayna"))]]

/-- A separator of each kind, a name twice, and a blank inside a name. -/
theorem gateway_dayna :
    parseAuthentikGroups (some (lit "dayna;authentik Admins|dayna,ops")) =
        [lit "dayna", lit "authentik Admins", lit "ops"] ∧
      ∃ principal, buildPrincipal (lit "dayna")
          (parseAuthentikGroups (some (lit "dayna;authentik Admins|dayna,ops")))
          (.arr (daynaRoles.map .obj)) = .ok principal ∧ principal.isAdmin = false ∧
        principal.allowedRoles = [.str (lit "dayna")] ∧
        principal.defaultRole = some (.str (lit "dayna")) := by
  have joined : Joined [lit "dayna", lit "authentik Admins", lit "dayna", lit "ops"]
      (lit "dayna" ++ ';' :: (lit "authentik Admins" ++ '|' :: (lit "dayna" ++ ',' :: lit "ops"))) :=
    .more rfl (.more rfl (.more rfl (.one _)))
  have named : ∀ name ∈ [lit "dayna", lit "authentik Admins", lit "dayna", lit "ops"],
      GroupName name := by
    have group : ∀ name : Str,
        (name.all fun c => isGroupSeparator c = false) = true ∧ strip name = name →
        GroupName name := fun name holds => ⟨List.all_iff_forall_prop.1 holds.1, holds.2⟩
    intro name member
    refine group name ?_
    revert name
    decide +kernel
  obtain ⟨read, made, parsed, -⟩ :=
    gateway_principal_law (lit "dayna") (.arr (daynaRoles.map .obj))
  obtain ⟨groups, -, -, granted⟩ := parsed _ _ joined named
  obtain ⟨principal, built⟩ := (made _).1 _ (read daynaRoles rfl)
  obtain ⟨admin, roleNames, configured, allowed⟩ := granted principal built
  have plain : principal.isAdmin = false := by
    rw [← Bool.not_eq_true, admin]
    decide +kernel
  have allowedRoles : principal.allowedRoles = [.str (lit "dayna")] := by
    rw [allowed plain]
    obtain rfl := Except.ok.inj ((read daynaRoles rfl).symm.trans configured)
    decide +kernel
  obtain ⟨_, -, rfl⟩ := buildPrincipal_ok_iff.mp built
  refine ⟨groups.trans (by decide +kernel), _, built, plain, allowedRoles, ?_⟩
  exact (congrArg List.head? allowedRoles).trans rfl

end Law

end S3Manager.Auth
