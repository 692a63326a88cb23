import Nexus.Realms.Requests

/-!
# The invariant of the realms

The built-in realms stay, there is one default realm at most, and what is removed is of a type that the endpoint is for,
exactly if no request deletes a realm of another type (`sound_iff`). Such requests are served, since the handlers look
for the name only (`delete_pam`).
-/

namespace Nexus.Realms

open Lib Subscriptions Lib.OrderedMap Option

def IsDefault (domains : Domains) (realm : String) : Prop :=
  ∃ found, domains.get? realm = some found ∧ found.default = some true

/-- The built-in realms are there, and at most one is the default. -/
structure WellFormed (domains : Domains) : Prop where
  pam : (domains.get? "pam").map Section.type = some .pam
  pdm : (domains.get? "pdm").map Section.type = some .pdm
  oneDefault : ∀ realm realm', IsDefault domains realm → IsDefault domains realm' → realm = realm'

/-- A realm goes only where its deletion is asked for. -/
def RemovesOnly (request : Request) (before after : Domains) : Prop :=
  ∀ realm old, before.get? realm = some old → after.get? realm = none →
    ∃ endpoint digest, request = .delete endpoint realm digest ∧ endpoint.manages old.type

/-- A deletion comes to the endpoint for the type of its realm. -/
def Managed (ext : External) (domains : Domains) : Request → Prop
  | .delete endpoint realm digest => ext.detectModification (ext.digest domains) digest = .ok () →
    ∀ old, domains.get? realm = some old → endpoint.manages old.type
  | _ => True

variable {domains : Domains} {realm realm' : String} {old new : Section}

theorem get?_put : ((makeRoom new.default domains).insert realm new).get? realm' = if realm' = realm then some new
    else if new.default = some true then (domains.get? realm').map Section.clearDefault else domains.get? realm' := by
  rw [get?_insert]
  refine if_congr Iff.rfl rfl ?_
  unfold makeRoom
  split
  · exact get?_unsetDefaultRealm _ _
  · rfl

theorem get?_put_ne_none (h : domains.get? realm' ≠ none) :
    ((makeRoom new.default domains).insert realm new).get? realm' ≠ none := by
  rw [get?_put]
  split
  · exact some_ne_none new
  · split
    · exact fun hnone => h (Option.map_eq_none_iff.mp hnone)
    · exact h

theorem type_put (hrealm : realm' ≠ realm) :
    (((makeRoom new.default domains).insert realm new).get? realm').map Section.type =
      (domains.get? realm').map Section.type := by
  rw [get?_put, if_neg hrealm]
  split
  · rw [Option.map_map]
    exact congrArg (Option.map · _) (funext Section.type_clearDefault)
  · rfl

theorem isDefault_put (h : IsDefault ((makeRoom new.default domains).insert realm new) realm') :
    if new.default = some true then realm' = realm else IsDefault domains realm' := by
  obtain ⟨found, hfnd, hdef⟩ := h
  rw [get?_put] at hfnd
  split at hfnd
  · next hrealm =>
    cases hfnd
    rw [if_pos hdef]
    exact hrealm
  · split at hfnd
    · -- Another realm has lost the flag.
      obtain ⟨cleared, _, rfl⟩ := Option.map_eq_some_iff.mp hfnd
      rw [Section.default_clearDefault] at hdef
      cases hdef
    · next hnew =>
      rw [if_neg hnew]
      exact ⟨found, hfnd, hdef⟩

theorem oneDefault_put (h : WellFormed domains) {realm₁ realm₂}
    (h₁ : IsDefault ((makeRoom new.default domains).insert realm new) realm₁)
    (h₂ : IsDefault ((makeRoom new.default domains).insert realm new) realm₂) : realm₁ = realm₂ := by
  have hdef₁ := isDefault_put h₁
  have hdef₂ := isDefault_put h₂
  by_cases hnew : new.default = some true
  · rw [if_pos hnew] at hdef₁ hdef₂
    exact hdef₁.trans hdef₂.symm
  · rw [if_neg hnew] at hdef₁ hdef₂
    exact h.oneDefault _ _ hdef₁ hdef₂

theorem wellFormed_put (h : WellFormed domains) (hold : ∀ old, domains.get? realm = some old → new.type = old.type) :
    WellFormed ((makeRoom new.default domains).insert realm new) := by
  have htype : ∀ {name type}, (domains.get? name).map Section.type = some type →
      (((makeRoom new.default domains).insert realm new).get? name).map Section.type = some type := by
    intro name type hname
    by_cases hrealm : name = realm
    · subst hrealm
      obtain ⟨old, found, rfl⟩ := Option.map_eq_some_iff.mp hname
      rw [get?_put, if_pos rfl]
      exact congrArg some (hold old found)
    · exact (type_put hrealm).trans hname
  exact ⟨htype h.pam, htype h.pdm, fun _ _ => oneDefault_put h⟩

theorem removesOnly_put {request} : RemovesOnly request domains ((makeRoom new.default domains).insert realm new) :=
  fun _ _ found hnone => absurd hnone (get?_put_ne_none (found ▸ nofun))

variable {endpoint : Endpoint} {digest : Option String}

theorem wellFormed_remove (h : WellFormed domains) (hfnd : domains.get? realm = some old)
    (hman : endpoint.manages old.type) : WellFormed (domains.remove realm) := by
  have other : ∀ {name type}, (domains.get? name).map Section.type = some type → endpoint.manages type = false →
      ((domains.remove realm).get? name).map Section.type = some type := by
    intro name type hname htype
    have hne : name ≠ realm := by
      rintro rfl
      rw [hfnd] at hname
      cases hname
      rw [hman] at htype
      cases htype
    rw [get?_remove, if_neg hne, hname]
  have hdef : ∀ {name}, IsDefault (domains.remove realm) name → IsDefault domains name := by
    rintro name ⟨found, hname, hdef⟩
    rw [get?_remove] at hname
    split at hname
    · cases hname
    · exact ⟨found, hname, hdef⟩
  refine ⟨other h.pam ?_, other h.pdm ?_, fun _ _ h₁ h₂ => h.oneDefault _ _ (hdef h₁) (hdef h₂)⟩
  all_goals cases endpoint <;> rfl

theorem removesOnly_remove_iff (hfnd : domains.get? realm = some old) :
    RemovesOnly (.delete endpoint realm digest) domains (domains.remove realm) ↔ endpoint.manages old.type := by
  constructor
  · intro h
    obtain ⟨_, _, hreq, hman⟩ := h realm old hfnd (by rw [get?_remove, if_pos rfl])
    cases hreq
    exact hman
  · intro hman name found hname hnone
    have hname' : name = realm := by
      by_contra hne
      rw [get?_remove, if_neg hne, hname] at hnone
      cases hnone
    subst hname'
    rw [hfnd] at hname
    cases hname
    exact ⟨endpoint, digest, rfl, hman⟩

theorem type_addMissing (hold : ∀ found, domains.get? realm = some found → found.type = new.type) :
    ((addMissing realm new domains).get? realm).map Section.type = some new.type := by
  rw [get?_addMissing, if_pos rfl]
  cases hfnd : domains.get? realm with
  | none => rfl
  | some found => exact congrArg some (hold found hfnd)

theorem isDefault_addMissing (hnew : new.default = none) (h : IsDefault (addMissing realm new domains) realm') :
    IsDefault domains realm' := by
  obtain ⟨found, hfnd, hdef⟩ := h
  rw [get?_addMissing] at hfnd
  split at hfnd
  · next hrealm =>
    subst hrealm
    cases hold : domains.get? realm' with
    | none =>
      rw [hold] at hfnd
      cases hfnd
      rw [getD_none, hnew] at hdef
      cases hdef
    | some old =>
      rw [hold] at hfnd
      cases hfnd
      exact ⟨old, hold, hdef⟩
  · exact ⟨found, hfnd, hdef⟩

theorem wellFormed_addDefaultRealms (hpam : ∀ found, domains.get? "pam" = some found → found.type = .pam)
    (hpdm : ∀ found, domains.get? "pdm" = some found → found.type = .pdm)
    (hone : ∀ realm realm', IsDefault domains realm → IsDefault domains realm' → realm = realm') :
    WellFormed (addDefaultRealms domains) where
  pam := by
    unfold addDefaultRealms
    rw [get?_addMissing, if_neg (by decide)]
    exact type_addMissing hpam
  pdm := by
    refine type_addMissing fun found hfnd => hpdm found ?_
    rwa [get?_addMissing, if_neg (by decide)] at hfnd
  oneDefault _ _ h₁ h₂ := hone _ _ (isDefault_addMissing rfl (isDefault_addMissing rfl h₁))
    (isDefault_addMissing rfl (isDefault_addMissing rfl h₂))

variable {ext : External} {request : Request} {s : RealmState}

theorem domains_delete
    (hcur : ext.detectModification (ext.digest s.domains) digest = .ok ()) (found : s.domains.get? realm = some old) :
    ((serve ext (.delete endpoint realm digest)).run s).2.domains = s.domains.remove realm := by
  have remove : (removeSection ext realm digest).run s = (.ok (), { s with domains := s.domains.remove realm }) := by
    rw [run_removeSection, hcur]
    show (if realmExists s.domains realm then _ else _) = _
    rw [realmExists, found]
    rfl
  cases endpoint with
  | openId => exact congrArg (fun result => result.2.domains) remove
  | ldap | ad =>
    show ((deleteLdapRealm ext realm digest).run s).2.domains = _
    rw [deleteLdapRealm, Effect.run_bind_of_ok remove]
    rfl

theorem serve_sound_iff (hs : WellFormed s.domains) : WellFormed ((serve ext request).run s).2.domains ∧
      RemovesOnly request s.domains ((serve ext request).run s).2.domains ↔ Managed ext s.domains request := by
  constructor
  · rintro ⟨_, remove⟩
    cases request with
    | delete =>
      intro hcur old found
      rw [domains_delete hcur found] at remove
      exact (removesOnly_remove_iff found).mp remove
    | _ => trivial
  · intro hman
    have writes : Writes ext request s.domains ((serve ext request).run s).2.domains := writes_serve ext request s
    generalize ((serve ext request).run s).2.domains = after at writes ⊢
    cases writes with
    | nothing => exact ⟨hs, fun _ _ found hnone => absurd (found.symm.trans hnone) nofun⟩
    | creates hfree => exact ⟨wellFormed_put hs fun _ found => absurd (found.symm.trans hfree) nofun, removesOnly_put⟩
    | updates found htype =>
      refine ⟨wellFormed_put hs fun old hold => ?_, removesOnly_put⟩
      rw [found] at hold
      cases hold
      exact htype
    | removes hreq hcur found =>
      subst hreq
      have managed := hman hcur _ found
      exact ⟨wellFormed_remove hs found managed, (removesOnly_remove_iff found).mpr managed⟩

abbrev Call := External × Request

def step (s : RealmState) (call : Call) : RealmState := ((serve call.1 call.2).run s).2

/-- **The built-in realms are there, there is one default realm at most and what is removed is of a type that the
endpoint is for, exactly if no request deletes a realm of another type.** -/
theorem sound_iff (s : RealmState) (hs : WellFormed s.domains) (calls : List Call) :
    (∀ before call, before ++ [call] <+: calls → WellFormed (step (before.foldl step s) call).domains ∧
        RemovesOnly call.2 (before.foldl step s).domains (step (before.foldl step s) call).domains) ↔
      ∀ before call, before ++ [call] <+: calls → Managed call.1 (before.foldl step s).domains call.2 :=
  always_step_iff (P := fun s => WellFormed s.domains)
    (Q := fun s call => RemovesOnly call.2 s.domains (step s call).domains) (fun _ _ hs => serve_sound_iff hs) hs calls

def quiet : External := ⟨Sample.digestCheck, fun _ => "", fun _ => false, fun _ => .ok (), fun _ => .ok []⟩

def sso : OpenIdRealmConfig :=
  ⟨"sso", "https://sso.example.com", "nexus", none, none, none, none, none, none, some true, none, none⟩

def builtins : RealmState := ⟨addDefaultRealms .empty, .empty⟩

theorem wellFormed_builtins : WellFormed builtins.domains := by
  have hnone : ∀ realm, (OrderedMap.empty : Domains).get? realm = none := fun _ => rfl
  show WellFormed (addDefaultRealms .empty)
  refine wellFormed_addDefaultRealms ?_ ?_ ?_
  · exact fun _ found => absurd (found.symm.trans (hnone _)) nofun
  · exact fun _ found => absurd (found.symm.trans (hnone _)) nofun
  · rintro _ _ ⟨_, found, _⟩
    exact absurd (found.symm.trans (hnone _)) nofun

def createAndDelete : List Call := [(quiet, .createOpenId sso), (quiet, .delete .openId "sso" none)]

/-- A realm is created and deleted again. -/
theorem sso_deleted : WellFormed (createAndDelete.foldl step builtins).domains ∧
      (createAndDelete.foldl step builtins).domains.get? "sso" = none := by
  have hman : ∀ before call, before ++ [call] <+: createAndDelete →
      Managed call.1 (before.foldl step builtins).domains call.2 := by
    intro before call hpref
    match before with
    | [] =>
      obtain ⟨rfl, _⟩ := List.cons_prefix_cons.mp hpref
      trivial
    | [_] =>
      obtain ⟨rfl, hrest⟩ := List.cons_prefix_cons.mp hpref
      obtain ⟨rfl, _⟩ := List.cons_prefix_cons.mp hrest
      rintro _ old hold
      have hsso : (step builtins (quiet, .createOpenId sso)).domains.get? "sso" = some (.openId sso) := by decide
      cases hsso.symm.trans hold
      rfl
    | _ :: _ :: _ => exact absurd hpref.length_le (by simp [createAndDelete])
  have h := (sound_iff builtins wellFormed_builtins _).mpr hman [(quiet, .createOpenId sso)]
    (quiet, .delete .openId "sso" none) (List.prefix_refl _)
  exact ⟨h.1, by decide⟩

/-- The built-in realm `pam` is deleted as an LDAP realm. -/
theorem delete_pam : WellFormed builtins.domains ∧ ((serve quiet (.delete .ldap "pam" none)).run builtins).1 = .ok () ∧
      (step builtins (quiet, .delete .ldap "pam" none)).domains.get? "pam" = none :=
  ⟨wellFormed_builtins, rfl, by decide⟩

end Nexus.Realms
