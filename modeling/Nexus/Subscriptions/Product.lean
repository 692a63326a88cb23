import Nexus.Subscriptions.Pending

/-!
# Keys and the products of their remotes

`set_assignment` and `bulk_assign` compare the product of a key with the type of the remote. Adopting a key does not: it
takes the key that the node reports, whatever remote that is. So a binding fits the type of its remote as long as the
remotes report keys of their own product only (`bindings_match_of_run`).
-/

namespace Nexus.Subscriptions

open Lib Lib.OrderedMap Option

/-! ## New bindings -/

def productOf (config : KeyConfig) (key : String) : Option ProductType :=
  match config.get? key with
  | some entry => some entry.productType
  | none => ProductType.fromKey key

def Fits (remotes : RemotesConfig) (product : ProductType) (remote : String) : Prop :=
  ∃ r, remotes.get? remote = some r ∧ product.matchesRemoteType r.ty

/-- A new binding is of a key for the product of its remote. -/
def BindsMatching (remotes : RemotesConfig) (before after : KeyConfig) : Prop :=
  ∀ key new remote node, after.get? key = some new → new.binding = some (remote, node) →
    (before.get? key).bind (·.binding) ≠ some (remote, node) → Fits remotes new.productType remote

variable {remotes : RemotesConfig} {before config : KeyConfig} {key remote node : String}
  {entry : SubscriptionKeyEntry}

theorem BindsMatching.refl (remotes) (config) : BindsMatching remotes config config := by
  intro key new remote node hnew hb hne
  rw [hnew] at hne
  exact absurd hb hne

theorem BindsMatching.insert (h : BindsMatching remotes before config)
    (hfits : ∀ remote node, entry.binding = some (remote, node) → Fits remotes entry.productType remote) :
    BindsMatching remotes before (config.insert key entry) := by
  intro key' new remote node hnew hb hne
  rw [get?_insert] at hnew
  split at hnew
  · obtain rfl : entry = new := some.inj hnew
    exact hfits remote node hb
  · exact h key' new remote node hnew hb hne

/-! ## The handlers that bind -/

variable {δ : Type} {ext : External δ} {world : World} {auth : Authid} {digest : Option δ} {pre : PreRead δ}
  {config' : KeyConfig}

theorem World.findRemote_eq_ok {r} (h : world.findRemote remote = .ok r) : world.remotes.get? remote = some r := by
  unfold World.findRemote at h
  split at h
  · cases h
  · next hget => rw [hget, Except.ok.inj h]

theorem setAssignmentLocked_matching
    (h : setAssignmentLocked ext world auth key remote node digest pre config = .ok config') :
    BindsMatching world.remotes config config' := by
  simp only [setAssignmentLocked, bind_eq_ok] at h
  obtain ⟨_, -, stored, -, _, -, _, -, r, hrem, _, hmatch, h⟩ := h
  split at h
  · cases h
  · obtain rfl := Except.ok.inj h
    refine (BindsMatching.refl _ config).insert fun remote' node' hb => ?_
    obtain ⟨rfl, -⟩ := Prod.mk.inj (some.inj hb)
    exact ⟨r, World.findRemote_eq_ok hrem, require_eq_ok.mp hmatch⟩

theorem adopt_productOf (h : adopt ext key remote node config = .ok config') (key') :
    productOf config' key' = productOf config key' := by
  rcases (adopt_eq_ok h).2 with ⟨existing, stored, -, rfl⟩ | ⟨productType, hnew, product, rfl⟩
  · by_cases hk : key' = key
    · simp [productOf, get?_insert, hk, stored, SubscriptionKeyEntry.bind]
    · simp [productOf, get?_insert, hk]
  · by_cases hk : key' = key
    · simp [productOf, get?_insert, hk, hnew, product, SubscriptionKeyEntry.bind, newEntry]
    · simp [productOf, get?_insert, hk]

theorem adopt_matching (h : adopt ext key remote node config = .ok config')
    (hfits : ∀ product, productOf config key = some product → Fits remotes product remote)
    (hbef : BindsMatching remotes before config) : BindsMatching remotes before config' := by
  rcases (adopt_eq_ok h).2 with ⟨existing, stored, -, rfl⟩ | ⟨productType, hnew, hprod, rfl⟩
  · refine hbef.insert fun remote' node' hb => ?_
    obtain ⟨rfl, -⟩ := Prod.mk.inj (some.inj hb)
    exact hfits existing.productType (by simp [productOf, stored])
  · refine hbef.insert fun remote' node' hb => ?_
    obtain ⟨rfl, -⟩ := Prod.mk.inj (some.inj hb)
    exact hfits productType (by simp [productOf, hnew, hprod])

theorem adoptAllStep_matching (acc) (n)
    (hfits : ∀ key product, n.currentKey = some key → productOf acc.1 key = some product →
      Fits remotes product n.remote)
    (h : BindsMatching remotes before acc.1) : BindsMatching remotes before (adoptAllStep ext world auth acc n).1 ∧
      ∀ key, productOf (adoptAllStep ext world auth acc n).1 key = productOf acc.1 key :=
  adoptAllStep_rule (P := fun config => BindsMatching remotes before config ∧
      ∀ key, productOf config key = productOf acc.1 key) ⟨h, fun _ => rfl⟩ fun hkey _ adopted =>
    ⟨adopt_matching adopted (fun product => hfits _ product hkey) h, adopt_productOf adopted⟩

theorem foldl_bulkAssignStep_matching : ∀ (l : List ProposedAssignment) (acc : KeyConfig × List ProposedAssignment),
    BindsMatching world.remotes before acc.1 →
      BindsMatching world.remotes before (l.foldl (bulkAssignStep ext world auth) acc).1
  | [], _, h => h
  | p :: l, acc, h => by
    refine foldl_bulkAssignStep_matching l _ (bulkAssignStep_rule h fun _ hrem _ hfits _ _ => h.insert ?_)
    intro remote' node' hb
    obtain ⟨rfl, -⟩ := Prod.mk.inj (some.inj hb)
    exact ⟨_, hrem, hfits⟩

theorem foldl_adoptAllStep_matching : ∀ (l : List RemoteNodeStatus) (acc : KeyConfig × List AdoptedEntry),
    (∀ n ∈ l, ∀ key product, n.currentKey = some key → productOf acc.1 key = some product →
      Fits remotes product n.remote) → BindsMatching remotes before acc.1 →
      BindsMatching remotes before (l.foldl (adoptAllStep ext world auth) acc).1
  | [], _, _, h => h
  | n :: l, acc, hfits, h => by
    obtain ⟨hn, hl⟩ := List.forall_mem_cons.mp hfits
    refine foldl_adoptAllStep_matching l (adoptAllStep ext world auth acc n) (fun n' hn' key product hk hp => ?_)
      (adoptAllStep_matching acc n hn h).1
    rw [(adoptAllStep_matching acc n hn h).2] at hp
    exact hl n' hn' key product hk hp

/-! ## Runs -/

def Request.binds {δ : Type} : Request δ → Bool
  | .setAssignment .. | .bulkAssign .. | .adoptKey .. | .adoptAll .. => true
  | _ => false

/-- Adopted keys fit the remotes that report them. -/
def Request.AdoptsFitting {δ : Type} (env : Env) (pool : KeyConfig) : Request δ → Prop
  | .adoptKey remote node _ => ∀ key product, nodeKey env.live remote node = some (some key) →
      productOf pool key = some product → Fits env.locked.remotes product remote
  | .adoptAll _ => ∀ remote node key product, remote ∈ env.fetch.remotes.entries.map Prod.fst →
      nodeKey env.live remote node = some (some key) → productOf pool key = some product →
      Fits env.locked.remotes product remote
  | _ => True

variable {env : Env} {snapshots : Snapshots} {pool : KeyConfig}

theorem adoptKeyPre_key {start fetch live auth remote node pre}
    (h : adoptKeyPre ext start fetch live auth remote node pool = .ok pre) :
    nodeKey live remote node = some (some pre.2) := by
  simp only [adoptKeyPre, bind_eq_ok] at h
  obtain ⟨_, -, _, -, h⟩ := h
  split at h
  · cases h
  · next infos hlive =>
    split at h
    · cases h
    · next key hkey =>
      obtain rfl := Except.ok.inj h
      cases hinfo : infos.get? node with
      | none => simp [hinfo] at hkey
      | some => simpa [nodeKey, hlive, hinfo] using hkey

theorem Request.run_matching {request : Request δ} {result : KeyConfig × Response} (hbinds : request.binds)
    (hfits : request.AdoptsFitting env pool) (h : request.run ext env snapshots pool = .ok result) :
    BindsMatching env.locked.remotes pool result.1 := by
  obtain ⟨config, response⟩ := result
  cases Request.commits_of_run h with
  | setAssignment _ _ hlock => exact setAssignmentLocked_matching hlock
  | adoptKey _ hpre adopts =>
    exact adopt_matching adopts (fun product => hfits _ product (adoptKeyPre_key hpre)) (.refl _ pool)
  | bulkAssign _ hloop =>
    subst hloop
    simp only
    split
    · exact .refl _ pool
    · exact foldl_bulkAssignStep_matching _ (pool, []) (.refl _ pool)
  | @adoptAll _ auth _ _ hloop =>
    subst hloop
    simp only
    split
    · exact .refl _ pool
    · refine foldl_adoptAllStep_matching _ (pool, []) (fun n hn key product hkey hprod => ?_) (.refl _ pool)
      obtain ⟨remote, htold⟩ := (tells_collectNodeStatus env.fetch env.live auth snapshots.status n.remote n.node
        n.currentKey).mp ⟨n, hn, rfl, rfl, rfl⟩
      have hasked : n.remote ∈ env.fetch.remotes.entries.map Prod.fst := (List.filter_sublist.map _).subset remote
      exact hfits n.remote n.node key product hasked (hkey ▸ htold) hprod
  | _ => cases hbinds

/-- **A binding that comes about fits its remote, if the remotes report keys of their own product.** -/
theorem bindings_match_of_run (ext : External δ) (actions : List (Action δ)) (id : Nat)
    (request : Request δ) (env : Env) (saved : Bool) (hbinds : request.binds)
    (hfits : request.AdoptsFitting env (System.run ext actions).pool) :
    BindsMatching env.locked.remotes (System.run ext actions).pool
      ((System.run ext actions).step ext (.commit id request env saved)).pool := by
  rcases (System.run ext actions).step_commit_cases ext id request env saved with
    ⟨config, auth, -, hstep⟩ | ⟨-, hstep | ⟨config, response, hrun, hstep⟩⟩ <;> rw [hstep]
  · exact .refl _ _
  · exact .refl _ _
  · exact Request.run_matching hbinds hfits hrun

def Sample.mixedEnv : Env :=
  let world : World := ⟨Sample.world.userInfo,
    ⟨⟨[("pve-a", ⟨.pve, "pve-a"⟩), ("pbs-a", ⟨.pbs, "pbs-a"⟩)], by decide⟩, by decide⟩⟩
  ⟨⟨some (.ok "root@pam")⟩, world, world, world, Sample.live (some Sample.key)⟩

theorem bindings_match_adoptKey : BindsMatching Sample.mixedEnv.locked.remotes OrderedMap.empty
    ((System.run Sample.ext []).step Sample.ext
      (.commit 0 (.adoptKey "pve-a" "n" none) Sample.mixedEnv true)).pool := by
  refine bindings_match_of_run Sample.ext [] 0 (.adoptKey "pve-a" "n" none) Sample.mixedEnv true rfl ?_
  intro key product hkey hprod
  have hrep : nodeKey Sample.mixedEnv.live "pve-a" "n" = some (some Sample.key) := by decide
  obtain rfl : key = Sample.key := some.inj (some.inj (hkey.symm.trans hrep))
  have hpve : productOf (System.run Sample.ext []).pool Sample.key = some .pve := by decide
  obtain rfl : product = .pve := some.inj (hprod.symm.trans hpve)
  exact ⟨⟨.pve, "pve-a"⟩, by decide, rfl⟩

/-- A backup server that reports a key for virtual environments. -/
theorem adoptKey_binds_wrong_product : ¬ BindsMatching Sample.mixedEnv.locked.remotes (System.run Sample.ext []).pool
    ((System.run Sample.ext []).step Sample.ext
      (.commit 0 (.adoptKey "pbs-a" "n" none) Sample.mixedEnv true)).pool := by
  intro h
  have hbound : ((System.run Sample.ext []).step Sample.ext
      (.commit 0 (.adoptKey "pbs-a" "n" none) Sample.mixedEnv true)).pool.get? Sample.key =
      some ⟨Sample.key, .pve, .basic, .adopted, some "pbs-a", some "n", false⟩ := by decide
  obtain ⟨r, hr, hfits⟩ := h Sample.key _ "pbs-a" "n" hbound rfl (by decide)
  have remote : Sample.mixedEnv.locked.remotes.get? "pbs-a" = some ⟨.pbs, "pbs-a"⟩ := by decide
  obtain rfl := some.inj (hr.symm.trans remote)
  cases hfits

end Nexus.Subscriptions
