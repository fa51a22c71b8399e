import S3Manager.Clients.Resolve
import S3Manager.Web.ConfigRoutes

/-! What an accepted `update_config` request has gone through: the rules for the fields,
and the checks on each role. -/

set_option autoImplicit false

namespace S3Manager.Web

open Python Access Config Library Clients

section Dictionaries

variable {record : Dict} {value : Json}

theorem dictGet_set_self (key : String) : dictGet (dictSet record key value) key = value := by
  rw [dictGet, dictSet, Assoc.get?_set_self, Option.getD_some]

theorem dictGet_set_ne {key other : String} (different : lit other ≠ lit key) :
    dictGet (dictSet record key value) other = dictGet record other := by
  rw [dictGet, dictSet, Assoc.get?_set_ne _ _ different, dictGet]

end Dictionaries

section Accepted

variable {environ : Environ} {current body saved : Dict} {isAdmin writable : Bool}

/-- The stages of an accepted request. -/
structure Accepted (environ : Environ) (current body limits settled saved : Dict) : Prop where
  hasRoles : dictHas body "roles" = true
  limited : FieldRule.applyAll (limitRules environ current) body = .ok limits
  ordered : checkTtlOrder environ limits = .ok ()
  served : FieldRule.applyAll (serverRules environ current) limits = .ok settled
  checked : checkRoles current settled = .ok saved

theorem accepted_of_update
    (updated : updateConfig environ current isAdmin writable body = .ok saved) :
    ∃ limits settled, Accepted environ current body limits settled saved := by
  unfold updateConfig at updated
  split_ifs at updated with guest locked
  · cases updated
  · cases updated
  · cases revised : revisedConfig environ current body with
    | error exc =>
        rw [revised] at updated
        cases updated
    | ok result =>
        rw [revised] at updated
        obtain rfl : result = saved := Except.ok.inj updated
        unfold revisedConfig at revised
        split_ifs at revised with missing
        · cases revised
        · obtain ⟨limits, limited, rest⟩ := bind_eq_ok_iff.mp revised
          obtain ⟨⟨⟩, ordered, rest⟩ := bind_eq_ok_iff.mp rest
          obtain ⟨settled, served, checked⟩ := bind_eq_ok_iff.mp rest
          exact ⟨limits, settled, by simpa using missing, limited, ordered, served, checked⟩

theorem limitRules_keys (environ : Environ) (current : Dict) :
    (limitRules environ current).map FieldRule.key =
      [lit "enable_lazy_loading", lit "max_file_size", lit "max_client_load",
        lit "presigned_url_default_ttl", lit "presigned_url_max_ttl"] := rfl

theorem serverRules_keys (environ : Environ) (current : Dict) :
    (serverRules environ current).map FieldRule.key =
      [lit "preview_text_extensions", lit "upload_inline_extensions", lit "password_min_length",
        lit "password_min_uppercase", lit "password_min_lowercase", lit "password_min_digits",
        lit "password_min_special", lit "mcp_enabled", lit "mcp_disable_writes",
        lit "mcp_text_extensions", lit "mcp_global_max_read_bytes", lit "mcp_summary_max_keys",
        lit "mcp_summary_prefix_scan_pages", lit "mcp_list_page_size",
        lit "mcp_list_max_page_size"] := rfl

/-- The rules leave a field alone that is none of theirs. -/
theorem Accepted.untouched {limits settled : Dict} {key : Str}
    (accepted : Accepted environ current body limits settled saved)
    (limit : key ∉ (limitRules environ current).map FieldRule.key)
    (server : key ∉ (serverRules environ current).map FieldRule.key) :
    Assoc.get? settled key = Assoc.get? body key := by
  rw [FieldRule.applyAll_other accepted.served, FieldRule.applyAll_other accepted.limited]
  · exact fun rule member same => limit (same ▸ List.mem_map_of_mem member)
  · exact fun rule member same => server (same ▸ List.mem_map_of_mem member)

/-- The roles are checked after the rules have settled the other fields. -/
theorem Accepted.settled {limits settled : Dict} {key : Str}
    (accepted : Accepted environ current body limits settled saved) (other : key ≠ lit "roles") :
    Assoc.get? saved key = Assoc.get? settled key := by
  obtain ⟨listed, _, rest⟩ := bind_eq_ok_iff.mp accepted.checked
  obtain ⟨roles, _, rest⟩ := bind_eq_ok_iff.mp rest
  obtain ⟨items, _, rest⟩ := bind_eq_ok_iff.mp rest
  obtain ⟨stored, _, ended⟩ := bind_eq_ok_iff.mp rest
  split at ended
  · obtain rfl := Except.ok.inj ended
    exact Assoc.get?_set_ne _ _ other
  · rw [Except.ok.inj ended]

theorem Accepted.limit {limits settled : Dict} {rule : ConfigRule}
    (accepted : Accepted environ current body limits settled saved)
    (member : rule ∈ limitRules environ current) :
    rule.Settles (Assoc.get? body rule.key) (Assoc.get? saved rule.key) := by
  have apart : ∀ name ∈ (limitRules environ current).map FieldRule.key,
      name ≠ lit "roles" ∧ name ∉ (serverRules environ current).map FieldRule.key := by
    rw [limitRules_keys, serverRules_keys]
    decide +kernel
  obtain ⟨other, unserved⟩ := apart rule.key (List.mem_map_of_mem member)
  have kept : Assoc.get? settled rule.key = Assoc.get? limits rule.key :=
    FieldRule.applyAll_other accepted.served
      fun server among same => unserved (same ▸ List.mem_map_of_mem among)
  rw [accepted.settled other, kept]
  exact FieldRule.applyAll_settles (by rw [limitRules_keys]; decide +kernel) accepted.limited member

theorem Accepted.server {limits settled : Dict} {rule : ConfigRule}
    (accepted : Accepted environ current body limits settled saved)
    (member : rule ∈ serverRules environ current) :
    rule.Settles (Assoc.get? body rule.key) (Assoc.get? saved rule.key) := by
  have apart : ∀ name ∈ (serverRules environ current).map FieldRule.key,
      name ≠ lit "roles" ∧ name ∉ (limitRules environ current).map FieldRule.key := by
    rw [limitRules_keys, serverRules_keys]
    decide +kernel
  obtain ⟨other, unlimited⟩ := apart rule.key (List.mem_map_of_mem member)
  have sent : Assoc.get? limits rule.key = Assoc.get? body rule.key :=
    FieldRule.applyAll_other accepted.limited
      fun limit among same => unlimited (same ▸ List.mem_map_of_mem among)
  rw [accepted.settled other, ← sent]
  exact FieldRule.applyAll_settles (by rw [serverRules_keys]; decide +kernel) accepted.served member

theorem Accepted.sameRoles {limits settled : Dict}
    (accepted : Accepted environ current body limits settled saved) :
    configRoles settled = configRoles body := by
  have kept : Assoc.get? settled (lit "roles") = Assoc.get? body (lit "roles") := by
    refine accepted.untouched ?_ ?_
    · rw [limitRules_keys]
      decide
    · rw [serverRules_keys]
      decide
  rw [configRoles, dictGetD, kept, configRoles, dictGetD]

end Accepted

/-- Two lists that agree member by member are related as soon as the members of the first
one are what they should be. -/
theorem forall₂_iff_members {α β : Type} {relation property : α → β → Prop} {good : α → Prop}
    {left : List α} {right : List β} (related : List.Forall₂ relation left right)
    (means : ∀ a b, relation a b → (property a b ↔ good a)) :
    List.Forall₂ property left right ↔ ∀ a ∈ left, good a := by
  induction related with
  | nil => simp
  | @cons a b restLeft restRight here _ ih =>
      rw [List.forall₂_cons, List.forall_mem_cons, ih, means a b here]

section Checked

variable {roles : List (Json × Dict)} {role kept : Dict} {entry : Json} {sent stored : List Json}

theorem dictHas_of_containsText {key : String}
    (found : containsText (.obj role) (lit key) = .ok true) : dictHas role key = true := by
  have listed : (role.any fun field => field.1 == lit key) = true := Except.ok.inj found
  unfold dictHas Assoc.contains
  clear found
  induction role with
  | nil => cases listed
  | cons field rest ih =>
      obtain ⟨name, value⟩ := field
      by_cases same : name = lit key
      · rw [Assoc.get?, if_pos same, Option.isSome_some]
      · rw [Assoc.get?, if_neg same]
        refine ih ?_
        simpa [same] using listed

theorem checkEntry_ok {checked : Json} (accepted : checkEntry roles entry = .ok checked) :
    ∃ role kept, entry = .obj role ∧ checked = .obj kept ∧ dictHas role "name" = true ∧
      dictHas role "type" = true ∧ checkRole roles role = .ok kept := by
  obtain ⟨named, hasName, rest⟩ := bind_eq_ok_iff.mp accepted
  cases named with
  | false =>
      simp only [Bool.false_eq_true, if_false, Bool.not_false, Bool.true_or, if_true,
        result_bind_ok] at rest
      cases rest
  | true =>
      simp only [if_true] at rest
      obtain ⟨typed, hasType, rest⟩ := bind_eq_ok_iff.mp rest
      cases typed with
      | false => cases rest
      | true =>
          simp only [Bool.not_true, Bool.or_self, Bool.false_eq_true, if_false] at rest
          cases entry with
          | obj role =>
              dsimp only at rest
              cases kept : checkRole roles role with
              | error exc =>
                  rw [kept] at rest
                  cases rest
              | ok result =>
                  rw [kept] at rest
                  obtain rfl := Except.ok.inj rest
                  exact ⟨role, result, rfl, rfl, dictHas_of_containsText hasName,
                    dictHas_of_containsText hasType, kept⟩
          | null | bool | int | float | str | arr => cases rest

theorem checkEntries_forall₂ (accepted : checkEntries roles sent = .ok stored) :
    List.Forall₂ (fun entry checked => checkEntry roles entry = .ok checked) sent stored := by
  induction sent generalizing stored with
  | nil =>
      obtain rfl := Except.ok.inj accepted
      exact .nil
  | cons entry rest ih =>
      obtain ⟨checked, first, others⟩ := bind_eq_ok_iff.mp accepted
      obtain ⟨tail, later, rest⟩ := bind_eq_ok_iff.mp others
      obtain rfl := Except.ok.inj rest
      exact .cons first (ih later)

/-- The types of roles that have a secret. -/
def Keyed (role : Dict) : Prop :=
  dictGet role "type" = .str (lit "credentials") ∨ dictGet role "type" = .str (lit "s3_compatible")

instance (role : Dict) : Decidable (Keyed role) :=
  inferInstanceAs (Decidable (_ ∨ _))

/-- A stripped secret that counts as none. -/
def NoSecret (secret : Str) : Prop := secret = [] ∨ secret = lit "***REDACTED***"

/-- The secret of a keyed role is the one that is sent, or else the one that is stored
under its name. -/
inductive SecretKept (roles : List (Json × Dict)) (role kept : Dict) : Prop where
  | sent {secret : Str} (read : sentSecret role = .ok secret) (new : ¬ NoSecret secret)
      (stored : dictGet kept "secret_access_key" = .str secret)
  | found {secret : Str} {name : Json} {last : Dict} (read : sentSecret role = .ok secret)
      (none : NoSecret secret) (named : dictKey (dictGet role "name") = .ok name)
      (entry : currentRole roles name = some last)
      (stored : dictGet kept "secret_access_key" = dictGet last "secret_access_key")

theorem sentSecret_eq {other : Dict}
    (same : dictGet other "secret_access_key" = dictGet role "secret_access_key") :
    sentSecret other = sentSecret role := by
  unfold sentSecret
  rw [same]

/-- A kept role is the one that was sent, with a secret. -/
theorem keepSecret_set {other : Dict} {roleType : String}
    (accepted : keepSecret roles other roleType = .ok kept) :
    ∃ secret, kept = dictSet other "secret_access_key" secret := by
  obtain ⟨secret, read, rest⟩ := bind_eq_ok_iff.mp accepted
  by_cases none : (secret.isEmpty || secret == lit "***REDACTED***") = true
  · rw [if_pos none] at rest
    obtain ⟨name, named, rest⟩ := bind_eq_ok_iff.mp rest
    cases found : currentRole roles name with
    | none =>
        rw [found] at rest
        cases rest
    | some last =>
        rw [found] at rest
        dsimp only at rest
        split_ifs at rest
        · exact ⟨_, (Except.ok.inj rest).symm⟩
        · cases rest
  · rw [if_neg none] at rest
    exact ⟨_, (Except.ok.inj rest).symm⟩

theorem keepSecret_ok {other : Dict} {roleType : String}
    (sameSecret : dictGet other "secret_access_key" = dictGet role "secret_access_key")
    (sameName : dictGet other "name" = dictGet role "name")
    (accepted : keepSecret roles other roleType = .ok kept) : SecretKept roles role kept := by
  obtain ⟨secret, read, rest⟩ := bind_eq_ok_iff.mp accepted
  rw [sentSecret_eq sameSecret] at read
  by_cases none : NoSecret secret
  · have blank : (secret.isEmpty || secret == lit "***REDACTED***") = true := by
      obtain rfl | rfl := none <;> rfl
    rw [if_pos blank, sameName] at rest
    obtain ⟨name, named, rest⟩ := bind_eq_ok_iff.mp rest
    cases found : currentRole roles name with
    | none =>
        rw [found] at rest
        cases rest
    | some last =>
        rw [found] at rest
        dsimp only at rest
        split_ifs at rest with present
        · obtain rfl := Except.ok.inj rest
          have live : dictGetD last "secret_access_key" (.str []) =
              dictGet last "secret_access_key" := by
            unfold dictGetD dictGet
            cases stored : Assoc.get? last (lit "secret_access_key") with
            | none =>
                have absent : dictGetD last "secret_access_key" (.str []) = .str [] := by
                  rw [dictGetD, stored, Option.getD_none]
                rw [absent] at present
                cases present
            | some value => rfl
          rw [live]
          exact .found read none named found (dictGet_set_self _)
        · cases rest
  · have given : (secret.isEmpty || secret == lit "***REDACTED***") = false := by
      simpa [NoSecret, not_or] using none
    rw [given] at rest
    obtain rfl := Except.ok.inj rest
    exact .sent read none (dictGet_set_self _)

/-- The checks on a role of either keyed type end with its secret, after they have
trimmed fields of their own. -/
theorem checkRole_keyed (keyed : Keyed role) (accepted : checkRole roles role = .ok kept) :
    ∃ other roleType, keepSecret roles other roleType = .ok kept ∧
      ∀ key, lit key ≠ lit "access_key_id" → lit key ≠ lit "endpoint_url" →
        dictGet other key = dictGet role key := by
  unfold checkRole at accepted
  obtain credentials | compatible := keyed
  · simp only [credentials] at accepted
    rw [if_neg (by decide), if_pos trivial] at accepted
    obtain ⟨⟨⟩, _, rest⟩ := bind_eq_ok_iff.mp accepted
    obtain ⟨accessKeyId, _, rest⟩ := bind_eq_ok_iff.mp rest
    split_ifs at rest with malformed
    · cases rest
    · exact ⟨_, _, rest, fun key access _ => dictGet_set_ne access⟩
  · simp only [compatible] at accepted
    rw [if_neg (by decide), if_neg (by decide), if_pos trivial] at accepted
    obtain ⟨⟨⟩, _, rest⟩ := bind_eq_ok_iff.mp accepted
    obtain ⟨⟨⟩, _, rest⟩ := bind_eq_ok_iff.mp rest
    obtain ⟨accessKeyId, _, rest⟩ := bind_eq_ok_iff.mp rest
    obtain ⟨endpointUrl, _, rest⟩ := bind_eq_ok_iff.mp rest
    exact ⟨_, _, rest, fun key access endpoint =>
      (dictGet_set_ne endpoint).trans (dictGet_set_ne access)⟩

theorem checkRole_keyless (keyless : ¬ Keyed role) (accepted : checkRole roles role = .ok kept) :
    kept = role := by
  obtain ⟨notCredentials, notCompatible⟩ := not_or.mp keyless
  unfold checkRole at accepted
  dsimp only at accepted
  split_ifs at accepted
  · obtain ⟨⟨⟩, _, rest⟩ := bind_eq_ok_iff.mp accepted
    exact (Except.ok.inj rest).symm
  · obtain ⟨⟨⟩, _, rest⟩ := bind_eq_ok_iff.mp accepted
    exact (Except.ok.inj rest).symm
  · exact (Except.ok.inj accepted).symm

/-- The checks on a role change three fields only. -/
theorem checkRole_other {key : String} (accepted : checkRole roles role = .ok kept)
    (access : lit key ≠ lit "access_key_id") (endpoint : lit key ≠ lit "endpoint_url")
    (secret : lit key ≠ lit "secret_access_key") : dictGet kept key = dictGet role key := by
  by_cases keyed : Keyed role
  · obtain ⟨other, roleType, kept, same⟩ := checkRole_keyed keyed accepted
    obtain ⟨value, rfl⟩ := keepSecret_set kept
    exact (dictGet_set_ne secret).trans (same key access endpoint)
  · rw [checkRole_keyless keyed accepted]

theorem checkRole_secret (keyed : Keyed role) (accepted : checkRole roles role = .ok kept) :
    SecretKept roles role kept := by
  obtain ⟨other, roleType, kept, same⟩ := checkRole_keyed keyed accepted
  exact keepSecret_ok (same _ (by decide) (by decide)) (same _ (by decide) (by decide)) kept

end Checked

section Stored

variable {environ : Environ} {current body limits settled saved : Dict}

def configEntries (config : Dict) : List Json :=
  match configRoles config with
  | .arr items => items
  | _ => []

/-- An accepted body has a list of roles, or an empty value in its place that stays. -/
inductive RolesStored (roles : List (Json × Dict)) (body saved : Dict) : Prop where
  | listed (sent stored : List Json) (before : configRoles body = .arr sent)
      (after : configRoles saved = .arr stored)
      (checked : List.Forall₂ (fun sent stored => checkEntry roles sent = .ok stored) sent stored)
  | empty (iterated : iterate (configRoles body) = .ok [])
      (first : firstRole (configRoles body) = .ok .null)
      (kept : configRoles saved = configRoles body)

theorem Accepted.stored (accepted : Accepted environ current body limits settled saved) :
    ∃ roles, iterate (configRoles current) >>= currentRoles = .ok roles ∧
      RolesStored roles body saved := by
  obtain ⟨listed, iterated, rest⟩ := bind_eq_ok_iff.mp accepted.checked
  obtain ⟨roles, named, rest⟩ := bind_eq_ok_iff.mp rest
  obtain ⟨items, shown, rest⟩ := bind_eq_ok_iff.mp rest
  obtain ⟨stored, checked, ended⟩ := bind_eq_ok_iff.mp rest
  refine ⟨roles, bind_eq_ok_iff.mpr ⟨listed, iterated, named⟩, ?_⟩
  have same := accepted.sameRoles
  rw [same] at shown ended
  have related := checkEntries_forall₂ checked
  cases kind : configRoles body with
  | arr sent =>
      rw [kind] at shown ended
      obtain rfl := Except.ok.inj shown
      obtain rfl := Except.ok.inj ended
      refine .listed sent stored kind ?_ related
      rw [configRoles, dictGetD, dictSet, Assoc.get?_set_self, Option.getD_some]
  | obj fields =>
      rw [kind] at shown ended same
      obtain rfl := Except.ok.inj ended
      obtain rfl := Except.ok.inj shown
      cases fields with
      | nil => exact .empty (by rw [kind]; rfl) (by rw [kind]; rfl) (same.trans kind.symm)
      | cons field rest =>
          cases related with
          | cons here _ =>
              obtain ⟨_, _, entry, _⟩ := checkEntry_ok here
              cases entry
  | str text =>
      rw [kind] at shown ended same
      obtain rfl := Except.ok.inj ended
      obtain rfl := Except.ok.inj shown
      cases text with
      | nil => exact .empty (by rw [kind]; rfl) (by rw [kind]; rfl) (same.trans kind.symm)
      | cons first rest =>
          cases related with
          | cons here _ =>
              obtain ⟨_, _, entry, _⟩ := checkEntry_ok here
              cases entry
  | null | bool | int | float =>
      rw [kind] at shown
      cases shown

theorem RolesStored.entries {roles : List (Json × Dict)} (stored : RolesStored roles body saved) :
    List.Forall₂ (fun sent stored => checkEntry roles sent = .ok stored)
      (configEntries body) (configEntries saved) := by
  unfold configEntries
  cases stored with
  | listed sent stored before after checked =>
      rw [before, after]
      exact checked
  | empty iterated _ kept =>
      rw [kept]
      cases kind : configRoles body with
      | arr items =>
          rw [kind] at iterated
          obtain rfl := Except.ok.inj iterated
          exact .nil
      | null | bool | int | float | str | obj => exact .nil

end Stored

end S3Manager.Web
