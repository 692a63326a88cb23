import Nexus.Resource

/-!
# The secrets of the remotes

`save_config` and `get_secret_token` of `lib/pdm-config/src/remotes.rs`. Tokens are moved into `remotes.shadow`, which
is replaced before `remotes.cfg`. So the tokens survive every crash (`CrashPoint`) exactly if no remote with a shadowed
token is removed and every token that is left out is a stored one (`survives_iff`).
-/

namespace Nexus.RemoteSecrets

open Lib (OrderedMap)
open Lib.OrderedMap List Option

/-! ## The two files -/

/-- The token is `-` once it is in the shadow file. -/
structure Remote extends Nexus.Remote where
  token : String

structure RemotesCfg extends OrderedMap String Remote where
  id_eq : ∀ p ∈ entries, p.2.id = p.1

structure RemoteShadow where
  ty : RemoteType
  (id token : String)

structure Disk where
  remotes : RemotesCfg
  shadow : OrderedMap String RemoteShadow

def getSecretToken (shadow : OrderedMap String RemoteShadow) (remote : Remote) : Except String String :=
  -- not yet rewritten into the shadow file
  if remote.token ≠ "-" then .ok remote.token
  else match shadow.get? remote.id with
    | some shadowEntry => .ok shadowEntry.token
    | none => .error ("No shadow entry found for remote " ++ remote.id)

/-! ## Saving -/

def RemotesCfg.hideToken (config : RemotesCfg) (id : String) : RemotesCfg where
  toOrderedMap := config.mapValues fun k remote => if k = id then { remote with token := "-" } else remote
  id_eq := by
    intro p hp
    obtain ⟨remote, hmem, e⟩ := mem_mapValues.mp hp
    have hid := config.id_eq _ hmem
    rw [e]
    split <;> exact hid

def newShadowEntry (remote : Remote) : Option RemoteShadow :=
  if remote.token ≠ "-" then some ⟨remote.ty, remote.id, remote.token⟩ else none

def newShadowEntries (config : RemotesCfg) : List RemoteShadow :=
  config.entries.filterMap fun p => newShadowEntry p.2

def removeLeftover (config : RemotesCfg) (shadow : OrderedMap String RemoteShadow) : OrderedMap String RemoteShadow :=
  ((shadow.entries.map Prod.fst).filter fun id => (config.get? id).isNone).foldl OrderedMap.remove shadow

def writtenShadow (d : Disk) (config : RemotesCfg) : OrderedMap String RemoteShadow :=
  (newShadowEntries config).foldl (fun shadow entry => shadow.insert entry.id entry) (removeLeftover config d.shadow)

def writtenRemotes (config : RemotesCfg) : RemotesCfg :=
  (newShadowEntries config).foldl (fun config entry => config.hideToken entry.id) config

/-- How far `save_config` has got. -/
inductive CrashPoint
  | before | between | after

def crashed (d : Disk) (config : RemotesCfg) : CrashPoint → Disk
  | .before => d
  | .between => { d with shadow := writtenShadow d config }
  | .after => ⟨writtenRemotes config, writtenShadow d config⟩

def saveConfig (d : Disk) (config : RemotesCfg) : Disk := crashed d config .after

/-! ## What is written -/

section

variable {d : Disk} {config : RemotesCfg} {id : String} {remote : Remote}

theorem id_of_newShadowEntry {entry} (h : newShadowEntry remote = some entry) : entry.id = remote.id := by
  unfold newShadowEntry at h
  split at h
  · cases h; rfl
  · cases h

theorem get?_removeLeftover (h : config.get? id = some remote) : (removeLeftover config d.shadow).get? id =
    d.shadow.get? id := by
  rw [removeLeftover, get?_foldl_remove, if_neg]
  intro hm
  simp [h] at hm

theorem get?_removeLeftover_of_none (h : config.get? id = none) : (removeLeftover config d.shadow).get? id = none := by
  rw [removeLeftover, get?_foldl_remove]
  split
  · rfl
  · next hm =>
    cases hs : d.shadow.get? id with
    | none => rfl
    | some =>
      have hkey : id ∈ d.shadow.entries.map Prod.fst := mem_map_of_mem (get?_eq_some.mp hs)
      exact absurd (mem_filter.mpr ⟨hkey, by simp [h]⟩) hm

theorem get?_writtenShadow (h : config.get? id = some remote) : (writtenShadow d config).get? id =
    (newShadowEntry remote).elim (d.shadow.get? id) some := by
  have hmem : (id, remote) ∈ config.entries := get?_eq_some.mp h
  have hkey : ∀ p ∈ config.entries, ∀ entry, newShadowEntry p.2 = some entry → entry.id = p.1 := fun p hp entry he =>
    (id_of_newShadowEntry he).trans (config.id_eq p hp)
  have hloop := foldl_filterMap_at RemoteShadow.id (g := fun entry _ => some entry) config.keys_nodup hkey hmem
    ((removeLeftover config d.shadow).get? id)
  rw [writtenShadow, get?_foldl_insert RemoteShadow.id (fun entry => entry), ← get?_removeLeftover h]
  exact hloop

theorem get?_writtenShadow_of_none (h : config.get? id = none) : (writtenShadow d config).get? id = none := by
  rw [writtenShadow, get?_foldl_insert RemoteShadow.id (fun entry => entry), get?_removeLeftover_of_none h]
  refine List.foldlRecOn (motive := fun v => v = none) _ _ rfl fun v hv entry hent => ?_
  obtain ⟨p, hp, he⟩ := mem_filterMap.mp hent
  have hid : entry.id = p.1 := (id_of_newShadowEntry he).trans (config.id_eq p hp)
  have remote : config.get? entry.id = some p.2 := get?_eq_some.mpr (hid ▸ hp)
  have hne : id ≠ entry.id := by
    rintro rfl
    cases h.symm.trans remote
  rw [if_neg hne, hv]

theorem get?_foldl_hideToken (id) : ∀ (entries : List RemoteShadow) (config : RemotesCfg),
    (entries.foldl (fun config entry => config.hideToken entry.id) config).get? id = (config.get? id).map fun remote =>
        if id ∈ entries.map RemoteShadow.id then { remote with token := "-" } else remote
  | [], config => by simp
  | entry :: entries, config => by
    have first : (config.hideToken entry.id).get? id = (config.get? id).map fun remote =>
        if id = entry.id then { remote with token := "-" } else remote :=
      get?_mapValues _ _ _
    rw [foldl_cons, get?_foldl_hideToken id entries, first, Option.map_map]
    congr 1
    funext remote
    by_cases he : id = entry.id
    · simp [he]
    · simp [he]

theorem get?_writtenRemotes (id) :
    (writtenRemotes config).get? id = (config.get? id).map fun remote => { remote with token := "-" } := by
  rw [writtenRemotes, get?_foldl_hideToken]
  cases h : config.get? id with
  | none => rfl
  | some remote =>
    simp only [map_some, some.injEq]
    split
    · rfl
    · next hnot =>
      -- without an entry of its own the token is hidden already
      have htok : remote.token = "-" := by
        by_contra hne
        have hmem : (id, remote) ∈ config.entries := get?_eq_some.mp h
        have hent : newShadowEntry remote = some ⟨remote.ty, remote.id, remote.token⟩ := if_pos hne
        refine hnot (mem_map.mpr ⟨_, mem_filterMap.mpr ⟨(id, remote), hmem, hent⟩, ?_⟩)
        exact config.id_eq _ hmem
      rw [← htok]

end

/-! ## Surviving a crash -/

def oldToken (d : Disk) (id : String) : Option String :=
  (d.remotes.get? id).bind fun remote => (getSecretToken d.shadow remote).toOption

def newToken (config : RemotesCfg) (id : String) : Option String :=
  (config.get? id).bind fun remote => if remote.token = "-" then none else some remote.token

/-- Every remote still has its token. -/
def Retrievable (d : Disk) : Prop :=
  ∀ id remote, d.remotes.get? id = some remote → ∃ token, getSecretToken d.shadow remote = .ok token

/-- Every listed remote has its old or its new token after a crash. -/
structure Survives (d : Disk) (config : RemotesCfg) : Prop where
  crash : ∀ point id remote, (crashed d config point).remotes.get? id = some remote →
    ∃ token, getSecretToken (crashed d config point).shadow remote = .ok token ∧
      (oldToken d id = some token ∨ newToken config id = some token)
  saved : ∀ id remote, (saveConfig d config).remotes.get? id = some remote →
    ∃ token, getSecretToken (saveConfig d config).shadow remote = .ok token ∧
      (newToken config id).or (oldToken d id) = some token
  hidden : ∀ id remote, (saveConfig d config).remotes.get? id = some remote → remote.token = "-"

/-- Only shadowed tokens are written as `-`, and none is left out. -/
structure KeepsShadowed (d : Disk) (config : RemotesCfg) : Prop where
  stays : ∀ id remote, d.remotes.get? id = some remote → remote.token = "-" → (config.get? id).isSome
  known : ∀ id remote, config.get? id = some remote → remote.token = "-" → ∃ old shadowEntry,
    d.remotes.get? id = some old ∧ d.shadow.get? id = some shadowEntry ∧
      (old.token = "-" ∨ old.token = shadowEntry.token)

section

variable {d : Disk} {config : RemotesCfg} {id : String} {remote : Remote} {shadow : OrderedMap String RemoteShadow}
  {token : String}

theorem id_of_get? (h : config.get? id = some remote) : remote.id = id :=
  config.id_eq _ (get?_eq_some.mp h)

theorem getSecretToken_given (h : remote.token ≠ "-") : getSecretToken shadow remote = .ok remote.token := if_pos h

theorem getSecretToken_hidden (h : remote.token = "-") :
    getSecretToken shadow remote = .ok token ↔ ∃ entry, shadow.get? remote.id = some entry ∧ entry.token = token := by
  unfold getSecretToken
  rw [if_neg (not_not.mpr h)]
  cases shadow.get? remote.id with
  | none => simp
  | some => simp

theorem oldToken_eq (hr : d.remotes.get? id = some remote)
    (h : getSecretToken d.shadow remote = .ok token) : oldToken d id = some token := by
  simp [oldToken, hr, h, Except.toOption]

section

variable (hr : config.get? id = some remote)

include hr

theorem newToken_given (h : remote.token ≠ "-") : newToken config id = some remote.token := by
  simp [newToken, hr, h]

theorem newToken_hidden (h : remote.token = "-") : newToken config id = none := by
  simp [newToken, hr, h]

theorem get?_writtenShadow_hidden (h : remote.token = "-") : (writtenShadow d config).get? id = d.shadow.get? id := by
  rw [get?_writtenShadow hr, newShadowEntry, if_neg (not_not.mpr h)]
  rfl

theorem get?_writtenShadow_given (h : remote.token ≠ "-") :
    (writtenShadow d config).get? id = some ⟨remote.ty, remote.id, remote.token⟩ := by
  rw [get?_writtenShadow hr, newShadowEntry, if_pos h]
  rfl

end

theorem getSecretToken_between (stored : Retrievable d) (keeps : KeepsShadowed d config)
    (hr : d.remotes.get? id = some remote) : ∃ token, getSecretToken (writtenShadow d config) remote = .ok token ∧
      (oldToken d id = some token ∨ newToken config id = some token) := by
  obtain ⟨token, htok⟩ := stored id remote hr
  have hold := oldToken_eq hr htok
  by_cases h : remote.token = "-"
  · obtain ⟨listed, hlist⟩ := isSome_iff_exists.mp (keeps.stays id remote hr h)
    have hid := id_of_get? hr
    by_cases hgiven : listed.token = "-"
    · have same := get?_writtenShadow_hidden (d := d) hlist hgiven
      refine ⟨token, ?_, .inl hold⟩
      rw [getSecretToken_hidden h, hid, same, ← hid]
      exact (getSecretToken_hidden h).mp htok
    · have given := get?_writtenShadow_given (d := d) hlist hgiven
      refine ⟨listed.token, ?_, .inr (newToken_given hlist hgiven)⟩
      rw [getSecretToken_hidden h, hid, given]
      exact ⟨_, rfl, rfl⟩
  · -- a token that is still in `remotes.cfg` is read from there
    rw [getSecretToken_given h] at htok ⊢
    exact ⟨token, htok, .inl hold⟩

theorem get?_saveConfig (h : (saveConfig d config).remotes.get? id = some remote) :
    ∃ given, config.get? id = some given ∧ remote = { given with token := "-" } := by
  change (writtenRemotes config).get? id = some remote at h
  rw [get?_writtenRemotes] at h
  obtain ⟨given, hgiven, e⟩ := map_eq_some_iff.mp h
  exact ⟨given, hgiven, e.symm⟩

theorem getSecretToken_saved (keeps : KeepsShadowed d config)
    (hr : (saveConfig d config).remotes.get? id = some remote) :
    ∃ token, getSecretToken (saveConfig d config).shadow remote = .ok token ∧
      (newToken config id).or (oldToken d id) = some token := by
  obtain ⟨given, hgiven, rfl⟩ := get?_saveConfig hr
  have hid : given.id = id := id_of_get? hgiven
  have read : ∀ {token}, getSecretToken (saveConfig d config).shadow { given with token := "-" } = .ok token ↔
      ∃ entry, (writtenShadow d config).get? id = some entry ∧ entry.token = token := fun {token} =>
    hid ▸ getSecretToken_hidden rfl
  by_cases h : given.token = "-"
  · obtain ⟨old, entry, hold, hent, htok⟩ := keeps.known id given hgiven h
    refine ⟨entry.token, read.mpr ⟨entry, (get?_writtenShadow_hidden hgiven h).trans hent, rfl⟩, ?_⟩
    rw [newToken_hidden hgiven h, none_or]
    refine oldToken_eq hold ?_
    by_cases hidden : old.token = "-"
    · exact (getSecretToken_hidden hidden).mpr ⟨entry, by rw [id_of_get? hold]; exact hent, rfl⟩
    · rw [getSecretToken_given hidden, htok.resolve_left hidden]
  · refine ⟨given.token, read.mpr ⟨_, get?_writtenShadow_given hgiven h, rfl⟩, ?_⟩
    rw [newToken_given hgiven h, some_or]

theorem survives_of_keeps (stored : Retrievable d) (keeps : KeepsShadowed d config) : Survives d config where
  crash := by
    intro point id remote hr
    cases point with
    | before =>
      obtain ⟨token, htok⟩ := stored id remote hr
      exact ⟨token, htok, .inl (oldToken_eq hr htok)⟩
    | between => exact getSecretToken_between stored keeps hr
    | after =>
      obtain ⟨token, htok, hwhich⟩ := getSecretToken_saved keeps hr
      refine ⟨token, htok, ?_⟩
      rcases or_eq_some_iff.mp hwhich with hnew | ⟨-, hold⟩
      · exact .inr hnew
      · exact .inl hold
  saved := fun id remote hr => getSecretToken_saved keeps hr
  hidden := by
    intro id remote hr
    obtain ⟨given, -, rfl⟩ := get?_saveConfig hr
    rfl

theorem keeps_of_survives (h : Survives d config) : KeepsShadowed d config where
  stays := by
    intro id remote hr hidden
    by_contra hgone
    have hnone : config.get? id = none := by simpa using hgone
    obtain ⟨token, htok, -⟩ := h.crash .between id remote hr
    obtain ⟨entry, hent, -⟩ := (getSecretToken_hidden hidden).mp htok
    rw [id_of_get? hr] at hent
    cases (get?_writtenShadow_of_none hnone).symm.trans hent
  known := by
    intro id given hgiven hidden
    have hr : (saveConfig d config).remotes.get? id = some { given with token := "-" } := by
      change (writtenRemotes config).get? id = _
      rw [get?_writtenRemotes, hgiven]
      rfl
    obtain ⟨token, htok, hwhich⟩ := h.saved id _ hr
    obtain ⟨entry, hent, rfl⟩ := (getSecretToken_hidden rfl).mp htok
    rw [newToken_hidden hgiven hidden, none_or] at hwhich
    obtain ⟨old, hold, hread⟩ := bind_eq_some_iff.mp hwhich
    have shadow : d.shadow.get? id = some entry := by
      rw [← get?_writtenShadow_hidden (d := d) hgiven hidden, ← id_of_get? hgiven]
      exact hent
    refine ⟨old, entry, hold, shadow, ?_⟩
    by_cases hplain : old.token = "-"
    · exact .inl hplain
    · rw [getSecretToken_given hplain] at hread
      exact .inr (some.inj hread)

end

/-- **The tokens survive a crash at any point of a save exactly if no remote with a shadowed token is removed and every
token that is left out is a shadowed one.** -/
theorem survives_iff (d : Disk) (config : RemotesCfg) (stored : Retrievable d) :
    Survives d config ↔ KeepsShadowed d config :=
  ⟨keeps_of_survives, survives_of_keeps stored⟩

namespace Sample

def remote (id token : String) : Remote := ⟨⟨.pve, id⟩, token⟩

def disk : Disk where
  remotes := ⟨⟨[("a", remote "a" "-")], nodup_singleton _⟩, forall_mem_singleton.mpr rfl⟩
  shadow := ⟨[("a", ⟨.pve, "a", "secret-a"⟩)], nodup_singleton _⟩

theorem retrievable_disk : Retrievable disk := by
  intro id r h
  have hmem : (id, r) ∈ [("a", remote "a" "-")] := get?_eq_some.mp h
  obtain ⟨rfl, rfl⟩ := Prod.mk.inj (mem_singleton.mp hmem)
  exact ⟨"secret-a", by decide⟩

def added : RemotesCfg where
  entries := [("a", remote "a" "-"), ("b", remote "b" "secret-b")]
  keys_nodup := by decide
  id_eq := by decide

def removed : RemotesCfg := ⟨.empty, forall_mem_nil _⟩

end Sample

open Sample

theorem survives_added : Survives disk added := by
  refine (survives_iff disk added retrievable_disk).mpr ⟨?_, ?_⟩
  · intro id r h _
    have hmem : (id, r) ∈ [("a", remote "a" "-")] := get?_eq_some.mp h
    obtain ⟨rfl, -⟩ := Prod.mk.inj (mem_singleton.mp hmem)
    decide
  · intro id r h hidden
    have hmem : (id, r) ∈ [("a", remote "a" "-"), ("b", remote "b" "secret-b")] :=
      get?_eq_some.mp h
    rcases mem_cons.mp hmem with e | hmem
    · obtain ⟨rfl, -⟩ := Prod.mk.inj e
      exact ⟨remote "a" "-", ⟨.pve, "a", "secret-a"⟩, rfl, rfl, .inl rfl⟩
    · obtain ⟨-, rfl⟩ := Prod.mk.inj (mem_singleton.mp hmem)
      exact absurd hidden (by decide)

/-- `remotes.cfg` still lists the removed remote, and its token is gone. -/
theorem removed_loses_token : Retrievable disk ∧
    (crashed disk removed .between).remotes.get? "a" = some (remote "a" "-") ∧
    getSecretToken (crashed disk removed .between).shadow (remote "a" "-") =
      .error "No shadow entry found for remote a" ∧ ¬ Survives disk removed := by
  have hread : getSecretToken (crashed disk removed .between).shadow (remote "a" "-") =
      .error "No shadow entry found for remote a" := by decide
  refine ⟨retrievable_disk, rfl, hread, fun h => ?_⟩
  obtain ⟨token, htok, -⟩ := h.crash .between "a" (remote "a" "-") rfl
  cases hread.symm.trans htok

end Nexus.RemoteSecrets
