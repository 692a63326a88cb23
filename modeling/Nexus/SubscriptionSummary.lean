import Mathlib.Data.Finset.Card
import Nexus.NodeInfo

/-!
# What is made of the subscriptions of nodes

`map_node_subscription_list_to_state` of `server/src/api/resources.rs`, `count_subscriptions` and `check_subscription`
of `server/src/api/nodes/subscription.rs`.

* A node with an unknown level hides that the others have different levels (`state_meaning_iff`).
* A remote that was added twice changes the statistics (`countSubscriptions_twice_iff`).
* A remote that cannot be asked ends the search for credentials (`checkSubscription_proper_iff`).
-/

namespace Nexus.SubscriptionSummary

open List

/-! ## The state of a remote -/

def levels (infos : NodeSubscriptions) : List SubscriptionLevel := infos.entries.map fun e => effectiveLevel e.2

def Known (level : SubscriptionLevel) : Prop := level ≠ .none ∧ level ≠ .unknown

/-- Two known levels differ. -/
def Differ (infos : NodeSubscriptions) : Prop :=
  ∃ level ∈ levels infos, ∃ level' ∈ levels infos, Known level ∧ Known level' ∧ level ≠ level'

/-- What the state says of the levels. -/
def Meaning (infos : NodeSubscriptions) : RemoteSubscriptionState → Prop
  | .none => .none ∈ levels infos
  | .unknown => ∀ level ∈ levels infos, level = .unknown
  | .mixed => .none ∉ levels infos ∧ Differ infos
  | .active => .none ∉ levels infos ∧ (∃ level ∈ levels infos, Known level) ∧ ¬ Differ infos

theorem foldl_minimum : ∀ (l : SubscriptionLevel) (ls : List SubscriptionLevel),
    let m := ls.foldl (fun a b => if a.rank ≤ b.rank then a else b) l
    m ∈ l :: ls ∧ ∀ x ∈ l :: ls, m.rank ≤ x.rank
  | l, [] => by simp
  | l, b :: ls => by
    obtain ⟨hmem, hle⟩ := foldl_minimum (if l.rank ≤ b.rank then l else b) ls
    simp only [foldl_cons]
    constructor
    · grind
    · intro x hx
      have start := hle _ mem_cons_self
      grind

theorem Meaning.unique {infos} (hne : levels infos ≠ []) {state state'}
    (h : Meaning infos state) (h' : Meaning infos state') : state = state' := by
  obtain ⟨level, hlevel⟩ := exists_mem_of_ne_nil _ hne
  cases state <;> cases state' <;> grind [Meaning, Differ, Known]

theorem meaning_state_iff {infos} (hne : levels infos ≠ []) : Meaning infos (mapNodeSubscriptionListToState infos) ↔
      ¬ (.none ∉ levels infos ∧ .unknown ∈ levels infos ∧ Differ infos) := by
  obtain ⟨l, ls, hlev⟩ := exists_cons_of_ne_nil hne
  obtain ⟨hmem, hle⟩ := foldl_minimum l ls
  have hents : infos.entries.map (fun e => effectiveLevel e.2) = l :: ls := hlev
  simp only [mapNodeSubscriptionListToState, hents]
  rw [← hlev] at hmem hle ⊢
  generalize ls.foldl (fun a b => if a.rank ≤ b.rank then a else b) l = m at hmem hle
  have hany : (levels infos).any (· ≠ m) ↔ ∃ level ∈ levels infos, level ≠ m := by simp
  cases hmixed : (levels infos).any (· ≠ m) <;> rw [hmixed] at hany <;> cases m <;>
    simp only [Meaning] <;> grind [Differ, Known, SubscriptionLevel.rank]

/-- **Each state means what it says exactly if no unknown level stands beside two different known ones.** -/
theorem state_meaning_iff {infos : NodeSubscriptions} (hne : infos.entries ≠ []) :
    (∀ state, mapNodeSubscriptionListToState infos = state ↔ Meaning infos state) ↔
      ¬ (.none ∉ levels infos ∧ .unknown ∈ levels infos ∧ Differ infos) := by
  have hlev : levels infos ≠ [] := fun h => hne (map_eq_nil_iff.mp h)
  rw [← meaning_state_iff hlev]
  constructor
  · exact fun h => (h _).mp rfl
  · rintro h state
    exact ⟨(· ▸ h), h.unique hlev⟩

def threeNodes (level level' : SubscriptionLevel) : NodeSubscriptions :=
  ⟨[("a", some ⟨.active, none, some "pve2x-1", level⟩), ("b", some ⟨.active, none, some "pve2x-2", level'⟩),
    ("c", none)],
    by simp⟩

theorem same_level_meaning : let infos := threeNodes .basic .basic
    ∀ state, mapNodeSubscriptionListToState infos = state ↔ Meaning infos state :=
  (state_meaning_iff (cons_ne_nil _ _)).mpr (by simp [levels, Differ, Known, effectiveLevel, threeNodes])

/-- The state is `Active`, and should be `Mixed`. -/
theorem unknown_hides_mixed : mapNodeSubscriptionListToState (threeNodes .basic .premium) = .active ∧
    Meaning (threeNodes .basic .premium) .mixed :=
  ⟨rfl, by decide, .basic, by decide, .premium, by decide, ⟨nofun, nofun⟩, ⟨nofun, nofun⟩, nofun⟩

/-! ## Statistics -/

abbrev Infos := List (String × RemoteType × List (String × Option NodeSubscriptionInfo))

structure SubscriptionStatistics where
  (totalNodes activeSubscriptions community : Nat)
  deriving DecidableEq

structure Count where
  stats : SubscriptionStatistics
  subscriptions : List String

/-- Panics where the total would fall below zero. -/
def countNode (count : Count) (nodeInfo : Option NodeSubscriptionInfo) : Option Count :=
  let total := count.stats.totalNodes + 1
  match nodeInfo with
  | some info => match info.key with
    | some key =>
      if info.status = .active ∧ key ∉ count.subscriptions then
        some ⟨⟨total, count.stats.activeSubscriptions + 1,
          if info.level = .community then count.stats.community + 1 else count.stats.community⟩,
        key :: count.subscriptions⟩
      else if info.status = .active then
        if total = 0 then none else some { count with stats.totalNodes := total - 1 }
      else some { count with stats.totalNodes := total }
    | none => some { count with stats.totalNodes := total }
  | none => some { count with stats.totalNodes := total }

def countRemote (count : Count) (nodes : List (String × Option NodeSubscriptionInfo)) : Option Count :=
  if nodes.isEmpty then some { count with stats.totalNodes := count.stats.totalNodes + 1 }
  else nodes.foldlM (fun count node => countNode count node.2) count

def countSubscriptions (infos : Infos) : Option SubscriptionStatistics :=
  (infos.foldlM (fun count remote => countRemote count remote.2.2) ⟨⟨0, 0, 0⟩, []⟩).map Count.stats

/-- The source divides as `f64`, which agrees below `2^53`. -/
def checkCounts (stats : SubscriptionStatistics) : Option (Except ApiError Unit) :=
  if stats.totalNodes = 0 then some (.error (.other "No remotes configured or could not fetch status."))
  else if stats.activeSubscriptions < stats.community then none
  else if 4 * stats.totalNodes ≤ 5 * (stats.activeSubscriptions - stats.community) then some (.ok ())
  else some (.error (.other "Too many remote nodes without active basic or higher subscription!"))

def activeKey : Option NodeSubscriptionInfo → Option String
  | some info => if info.status = .active then info.key else none
  | none => none

def countedOf (nodes : List (String × Option NodeSubscriptionInfo)) : List (Option NodeSubscriptionInfo) :=
  if nodes.isEmpty then [none] else nodes.map Prod.snd

def counted (infos : Infos) : List (Option NodeSubscriptionInfo) := infos.flatMap fun remote => countedOf remote.2.2

variable (levelOf : String → SubscriptionLevel)

def keys (nodes : List (Option NodeSubscriptionInfo)) : Finset String := (nodes.filterMap activeKey).toFinset

def statistics (nodes : List (Option NodeSubscriptionInfo)) : SubscriptionStatistics where
  totalNodes := nodes.countP (activeKey · = none) + (keys nodes).card
  activeSubscriptions := (keys nodes).card
  community := ((keys nodes).filter (levelOf · = .community)).card

/-- Equal keys carry equal levels. -/
def LevelsOf (nodes : List (Option NodeSubscriptionInfo)) : Prop :=
  ∀ info, some info ∈ nodes → ∀ key, info.key = some key → info.level = levelOf key

variable {levelOf} {nodes nodes' : List (Option NodeSubscriptionInfo)} {infos infos' : Infos}

theorem statistics_perm (h : nodes.Perm nodes') : statistics levelOf nodes = statistics levelOf nodes' := by
  have hkeys : keys nodes = keys nodes' := toFinset_eq_of_perm _ _ (h.filterMap activeKey)
  rw [statistics, statistics, hkeys, h.countP_eq]

theorem countNode_eq {count node}
    (level : ∀ info, node = some info → ∀ key, info.key = some key → info.level = levelOf key)
    (hseen : ∀ key, key ∈ count.subscriptions ↔ key ∈ keys nodes) (hstats : count.stats = statistics levelOf nodes) :
    ∃ count', countNode count node = some count' ∧ (∀ key, key ∈ count'.subscriptions ↔ key ∈ keys (node :: nodes)) ∧
      count'.stats = statistics levelOf (node :: nodes) := by
  cases hkey : activeKey node with
  | none =>
    have hkeys : keys (node :: nodes) = keys nodes := by simp [keys, hkey]
    refine ⟨{ count with stats.totalNodes := count.stats.totalNodes + 1 }, ?_, by rwa [hkeys], ?_⟩
    · cases node with
      | none => rfl
      | some info => cases hinfo : info.key <;> simp_all [countNode, activeKey]
    · simp [statistics, hkeys, hkey, hstats]
      omega
  | some key =>
    obtain ⟨info, rfl, active, hinfo⟩ : ∃ info, node = some info ∧ info.status = .active ∧ info.key = some key := by
      cases node <;> simp_all [activeKey]
    have hkeys : keys (some info :: nodes) = insert key (keys nodes) := by simp [keys, hkey]
    have hlevel := level info rfl key hinfo
    by_cases hmem : key ∈ count.subscriptions
    · rw [Finset.insert_eq_of_mem ((hseen key).mp hmem)] at hkeys
      refine ⟨count, by simp [countNode, hinfo, active, hmem], by rwa [hkeys], ?_⟩
      simp [statistics, hkeys, hkey, hstats]
    · have hnew : key ∉ keys nodes := fun h => hmem ((hseen key).mpr h)
      refine ⟨_, by simp only [countNode, hinfo, active, hmem]; rfl, ?_, ?_⟩
      · simp [hkeys, hseen]
      · simp [statistics, hkeys, hkey, hstats, hnew, Finset.filter_insert, hlevel]
        split <;> simp_all <;> omega

theorem foldlM_countNode : ∀ {nodes'} {nodes} {count : Count},
    LevelsOf levelOf nodes' → (∀ key, key ∈ count.subscriptions ↔ key ∈ keys nodes) →
    count.stats = statistics levelOf nodes →
    ∃ count', nodes'.foldlM countNode count = some count' ∧ count'.stats = statistics levelOf (nodes' ++ nodes)
  | [], _, count, _, _, hstats => ⟨count, rfl, hstats⟩
  | node :: nodes', nodes, count, levels, hseen, hstats => by
    obtain ⟨next, hnext, hseen, hstats⟩ :=
      countNode_eq (fun info h => levels info (h ▸ mem_cons_self)) hseen hstats
    obtain ⟨count', hrest, hstats⟩ :=
      foldlM_countNode (fun info h => levels info (mem_cons_of_mem _ h)) hseen hstats
    refine ⟨count', by rw [foldlM_cons, hnext]; exact hrest, hstats.trans (statistics_perm perm_middle)⟩

theorem foldlM_countRemote : ∀ infos count,
    infos.foldlM (fun count remote => countRemote count remote.2.2) count = (counted infos).foldlM countNode count
  | [], _ => rfl
  | (_, _, nodes) :: infos, count => by
    rw [foldlM_cons, counted, flatMap_cons, ← counted, foldlM_append]
    congr 1
    · cases nodes <;> simp [countRemote, countedOf, countNode, foldlM_map]
    · exact funext (foldlM_countRemote infos)

theorem countSubscriptions_eq (levels : LevelsOf levelOf (counted infos)) :
    countSubscriptions infos = some (statistics levelOf (counted infos)) := by
  have start : ∀ key, key ∈ (⟨⟨0, 0, 0⟩, []⟩ : Count).subscriptions ↔ key ∈ keys [] := by simp [keys]
  obtain ⟨count, hcounted, hstats⟩ := foldlM_countNode levels start (by simp [statistics, keys])
  rw [countSubscriptions, foldlM_countRemote, hcounted, Option.map_some, hstats, append_nil]

/-- The same remotes and nodes in another order. -/
def Reordered (infos infos' : Infos) : Prop := ∃ infos'', infos.Perm infos'' ∧
  List.Forall₂ (fun remote remote' => remote.1 = remote'.1 ∧ remote.2.1 = remote'.2.1 ∧ remote.2.2.Perm remote'.2.2)
    infos'' infos'

theorem Reordered.counted_perm (h : Reordered infos infos') : (counted infos).Perm (counted infos') := by
  obtain ⟨infos'', hperm, nodes⟩ := h
  refine (hperm.flatMap_right _).trans ?_
  clear hperm
  induction nodes with
  | nil => rfl
  | cons remote _ ih =>
    obtain ⟨_, _, remote⟩ := remote
    refine .append ?_ ih
    simp only [countedOf, remote.isEmpty_eq]
    split
    · rfl
    · exact remote.map Prod.snd

theorem LevelsOf.subset (h : LevelsOf levelOf nodes) (hsub : nodes' ⊆ nodes) : LevelsOf levelOf nodes' :=
  fun info hinfo => h info (hsub hinfo)

theorem Reordered.countSubscriptions_eq (levels : LevelsOf levelOf (counted infos)) (h : Reordered infos infos') :
    countSubscriptions infos' = some (statistics levelOf (counted infos)) := by
  rw [SubscriptionSummary.countSubscriptions_eq (levels.subset h.counted_perm.symm.subset),
    statistics_perm h.counted_perm]

theorem checkCounts_isSome (levelOf) (nodes) : (checkCounts (statistics levelOf nodes)).isSome := by
  have hle := Finset.card_filter_le (keys nodes) (levelOf · = .community)
  unfold checkCounts
  split_ifs with h0 h1 <;> simp
  exact absurd h1 (Nat.not_lt.mpr hle)

/-- **The statistics do not depend on the order and nothing falls below zero. A remote that is added once more leaves
them as they are exactly if it has nodes, and each has an active subscription with a key.** -/
theorem countSubscriptions_twice_iff (hlevels : LevelsOf levelOf (counted infos)) {name : String} {type : RemoteType}
    {nodes : List (String × Option NodeSubscriptionInfo)} (hmem : (name, type, nodes) ∈ infos) (name' : String) :
    (∀ infos', Reordered infos infos' → countSubscriptions infos' = countSubscriptions infos) ∧
    (∃ stats, countSubscriptions infos = some stats ∧ (checkCounts stats).isSome) ∧
    ((∀ infos', Reordered ((name', type, nodes) :: infos) infos' →
      countSubscriptions infos' = countSubscriptions infos) ↔
      nodes ≠ [] ∧ ∀ node ∈ nodes, (activeKey node.2).isSome) := by
  refine ⟨fun infos' h => ?_, ⟨_, countSubscriptions_eq hlevels, checkCounts_isSome levelOf _⟩, ?_⟩
  · rw [h.countSubscriptions_eq hlevels, countSubscriptions_eq hlevels]
  · have hsub : countedOf nodes ⊆ counted infos := fun node h => mem_flatMap.mpr ⟨_, hmem, h⟩
    have hadded : counted ((name', type, nodes) :: infos) = countedOf nodes ++ counted infos := rfl
    have hkeys : keys (countedOf nodes ++ counted infos) = keys (counted infos) := by
      ext key
      simp only [keys, mem_toFinset, filterMap_append, mem_append, or_iff_right_iff_imp]
      exact fun h => filterMap_subset activeKey hsub h
    have hadded_levels : LevelsOf levelOf (counted ((name', type, nodes) :: infos)) := by
      rw [hadded]
      exact hlevels.subset (append_subset.mpr ⟨hsub, List.Subset.refl _⟩)
    have hstats : statistics levelOf (countedOf nodes ++ counted infos) = statistics levelOf (counted infos) ↔
        ∀ node ∈ countedOf nodes, activeKey node ≠ none := by
      simp [statistics, hkeys, countP_eq_zero]
    have hall : (∀ node ∈ countedOf nodes, activeKey node ≠ none) ↔
        nodes ≠ [] ∧ ∀ node ∈ nodes, (activeKey node.2).isSome := by
      cases nodes with
      | nil => simp [countedOf, activeKey]
      | cons node rest => simp [countedOf, forall_mem_map, Option.isSome_iff_ne_none, -mem_map]
    rw [← hall, ← hstats, ← Option.some_inj, ← hadded, ← countSubscriptions_eq hlevels]
    constructor
    · intro h
      rw [← countSubscriptions_eq hadded_levels]
      exact h _ ⟨_, .rfl, forall₂_same.mpr fun _ _ => ⟨rfl, rfl, .rfl⟩⟩
    · intro h infos' hinfos'
      rw [hinfos'.countSubscriptions_eq hadded_levels, h]

def fourNodes : List (String × Option NodeSubscriptionInfo) :=
  [("n1", some ⟨.active, none, some "k1", .basic⟩), ("n2", some ⟨.active, none, some "k2", .basic⟩),
    ("n3", some ⟨.active, none, some "k3", .basic⟩), ("n4", some ⟨.active, none, some "k4", .basic⟩)]

def fourOfFive : Infos := [("a", .pve, fourNodes), ("b", .pve, [("n1", some ⟨.notFound, none, none, .none⟩)])]

theorem fourOfFive_levels : LevelsOf (fun _ => .basic) (counted fourOfFive) := by
  simp [LevelsOf, counted, countedOf, fourOfFive, fourNodes]

theorem countSubscriptions_first_twice :
    (∀ infos', Reordered fourOfFive infos' → countSubscriptions infos' = countSubscriptions fourOfFive) ∧
    (∃ stats, countSubscriptions fourOfFive = some stats ∧ (checkCounts stats).isSome) ∧
    ∀ infos', Reordered (("c", .pve, fourNodes) :: fourOfFive) infos' →
      countSubscriptions infos' = countSubscriptions fourOfFive := by
  obtain ⟨hperm, hcount, htwice⟩ := countSubscriptions_twice_iff fourOfFive_levels mem_cons_self "c"
  exact ⟨hperm, hcount, htwice.mpr (by decide)⟩

/-- The second remote is added once more, and there are too few subscriptions. -/
theorem countSubscriptions_second_twice :
    countSubscriptions fourOfFive = some ⟨5, 4, 0⟩ ∧ checkCounts ⟨5, 4, 0⟩ = some (.ok ()) ∧
      countSubscriptions (("c", .pve, [("n1", some ⟨.notFound, none, none, .none⟩)]) :: fourOfFive) = some ⟨6, 4, 0⟩ ∧
      checkCounts ⟨6, 4, 0⟩ =
        some (.error (.other "Too many remote nodes without active basic or higher subscription!")) := by
  decide

/-! ## Credentials for the enterprise repository -/

structure CompleteInfo extends NodeSubscriptionInfo where
  serverid : Option String

inductive Fetch
  | vanished
  | failed (err : ApiError)
  | answered (nodes : List (String × Option CompleteInfo))

abbrev Credentials := String × String

def eligible (info : NodeSubscriptionInfo) : Bool :=
  info.status = .active && SubscriptionLevel.basic.rank ≤ info.level.rank && info.key.isSome

def credentials (info : CompleteInfo) : Option Credentials :=
  if eligible info.toNodeSubscriptionInfo then
    match info.key, info.serverid with
    | some key, some serverid => some (key, serverid)
    | _, _ => none
  else none

def search (fetch : String → Fetch) : Infos → Except ApiError (Option Credentials)
  | [] => .ok none
  | (name, _, nodes) :: infos =>
    if nodes.any (·.2.any eligible) then
      match fetch name with
      | .vanished => search fetch infos
      | .failed err => .error err
      | .answered fresh => match fresh.findSome? (·.2.bind credentials) with
        | some found => .ok (some found)
        | none => search fetch infos
    else search fetch infos

def checkSubscription (infos : Infos) (fetch : String → Fetch) :
    Option (Except ApiError Unit × Option (Option Credentials)) := do
  let stats ← countSubscriptions infos
  match ← checkCounts stats with
  | .error err => return (.error err, some none)
  | .ok () => match search fetch infos with
    | .error err => return (.error err, none)
    | .ok found => return (.ok (), some found)

def candidates (infos : Infos) : List String :=
  (infos.filter fun remote => remote.2.2.any (·.2.any eligible)).map Prod.fst

def usable (fetch : String → Fetch) (name : String) : List Credentials :=
  match fetch name with
  | .answered fresh => fresh.filterMap (·.2.bind credentials)
  | _ => []

/-- The credentials of a usable node, if there is one. -/
def Proper (infos : Infos) (fetch : String → Fetch) (written : Option (Option Credentials)) : Prop :=
  if ∃ name ∈ candidates infos, usable fetch name ≠ [] then
    ∃ name ∈ candidates infos, ∃ found ∈ usable fetch name, written = some (some found)
  else written = some none

/-- A remote that cannot be asked comes after a usable one. -/
def FailsLate (fetch : String → Fetch) (names : List String) : Prop :=
  ∀ before name after err, names = before ++ name :: after → fetch name = .failed err →
    ∃ name ∈ before, usable fetch name ≠ []

variable {fetch : String → Fetch} {name : String} {names : List String} {infos : Infos}

theorem failsLate_cons : FailsLate fetch (name :: names) ↔
    (∀ err, fetch name ≠ .failed err) ∧ (usable fetch name ≠ [] ∨ FailsLate fetch names) := by
  constructor
  · intro h
    refine ⟨fun err herr => by simpa using h [] name names err rfl herr, ?_⟩
    by_cases husable : usable fetch name = []
    · refine .inr fun before other after err hnames herr => ?_
      simpa [husable] using h (name :: before) other after err (by rw [hnames, cons_append]) herr
    · exact .inl husable
  · rintro ⟨hfetch, h⟩ before other after err hnames herr
    cases before with
    | nil =>
      obtain ⟨rfl, _⟩ := List.cons.inj hnames
      exact absurd herr (hfetch err)
    | cons _ before =>
      obtain ⟨rfl, hrest⟩ := List.cons.inj hnames
      refine h.elim (fun h => ⟨name, mem_cons_self, h⟩) fun h => ?_
      obtain ⟨other, hoth, h⟩ := h before _ after err hrest herr
      exact ⟨other, mem_cons_of_mem _ hoth, h⟩

theorem search_spec (fetch) : ∀ infos, match search fetch infos with
    | .error _ => ¬ FailsLate fetch (candidates infos)
    | .ok none => FailsLate fetch (candidates infos) ∧ ∀ name ∈ candidates infos, usable fetch name = []
    | .ok (some found) => FailsLate fetch (candidates infos) ∧ ∃ name ∈ candidates infos, found ∈ usable fetch name
  | [] => by simp [search, candidates, FailsLate]
  | (name, type, nodes) :: infos => by
    have ih := search_spec fetch infos
    by_cases hany : nodes.any (·.2.any eligible)
    · have hcand : candidates ((name, type, nodes) :: infos) = name :: candidates infos := by simp [candidates, hany]
      rw [hcand, failsLate_cons]
      simp only [search, hany, if_true]
      cases hfetch : fetch name with
      | vanished =>
        have husable : usable fetch name = [] := by rw [usable, hfetch]
        simpa [husable] using ih
      | failed => simp
      | answered fresh =>
        have husable : usable fetch name = fresh.filterMap (·.2.bind credentials) := by rw [usable, hfetch]
        simp only [← head?_filterMap, ← husable]
        cases hfnd : usable fetch name with
        | nil => simpa [hfnd] using ih
        | cons => simp [hfnd]
    · have hcand : candidates ((name, type, nodes) :: infos) = candidates infos := by simp [candidates, hany]
      rw [hcand, search, if_neg hany]
      exact ih

/-- **Where the subscriptions suffice, the credentials of a usable node are written, or cleared if there is none,
exactly if every remote that cannot be asked comes after a usable one.** -/
theorem checkSubscription_proper_iff (hpass : (countSubscriptions infos).bind checkCounts = some (.ok ())) :
    (∃ answer written, checkSubscription infos fetch = some (answer, written) ∧ Proper infos fetch written) ↔
      FailsLate fetch (candidates infos) := by
  obtain ⟨stats, hstats, count⟩ := Option.bind_eq_some_iff.mp hpass
  have hspec := search_spec fetch infos
  simp only [checkSubscription, hstats, count, Option.bind_eq_bind, Option.bind_some]
  cases hsearch : search fetch infos with
  | error err =>
    rw [hsearch] at hspec
    refine iff_of_false ?_ hspec
    rintro ⟨_, _, ⟨⟩, hprop⟩
    unfold Proper at hprop
    split at hprop <;> simp at hprop
  | ok found =>
    rw [hsearch] at hspec
    cases found with
    | none => exact iff_of_true ⟨_, _, rfl, by simpa [Proper] using hspec.2⟩ hspec.1
    | some found =>
      obtain ⟨name, hname, hfnd⟩ := hspec.2
      refine iff_of_true ⟨_, _, rfl, ?_⟩ hspec.1
      rw [Proper, if_pos ⟨name, hname, ne_nil_of_mem hfnd⟩]
      exact ⟨name, hname, found, hfnd, rfl⟩

def oneUnreachable : Infos := [("z", .pve, [("n1", some ⟨.active, none, some "k5", .basic⟩)]), ("a", .pve, fourNodes)]

def answerOf : Fetch := .answered [("n1", some ⟨⟨.active, none, some "k1", .basic⟩, some "id1"⟩)]

theorem checkSubscription_all_reachable :
    ∃ answer written, checkSubscription oneUnreachable (fun _ => answerOf) = some (answer, written) ∧
      Proper oneUnreachable (fun _ => answerOf) written := by
  refine (checkSubscription_proper_iff (by decide)).mpr ?_
  rintro _ _ _ _ _ ⟨⟩

/-- The first remote fails, and the credentials of the second are not written. -/
theorem checkSubscription_one_unreachable : (countSubscriptions oneUnreachable).bind checkCounts = some (.ok ()) ∧
    checkSubscription oneUnreachable (fun name => if name = "z" then .failed (.other "timeout") else answerOf) =
      some (.error (.other "timeout"), none) ∧ "a" ∈ candidates oneUnreachable ∧
    usable (fun name => if name = "z" then .failed (.other "timeout") else answerOf) "a" = [("k1", "id1")] := by
  decide

end Nexus.SubscriptionSummary
