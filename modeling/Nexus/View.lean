import Mathlib.Data.Set.Finite.Basic
import Nexus.Access
import Nexus.Resource

/-!
# Views

A view is a list of include rules and a list of exclude rules over the resources of all remotes (`server/src/views`,
`pdm-api-types/src/views.rs`). A resource is in the view if it is included and not excluded. The main result is that
`canSkipRemote` only skips remotes without any resource in the view (`admits_eq_false_of_canSkipRemote`).
-/

namespace Nexus

/-! ## Rules -/

inductive StringMatcher
  | exact (value : String)

def StringMatcher.matches : StringMatcher → String → Bool
  | .exact matched, value => value == matched

structure EnumMatcher (α : Type) where
  value : α

def EnumMatcher.matches {α : Type} [DecidableEq α] (m : EnumMatcher α) (value : α) : Bool := m.value == value

inductive FilterRule
  | resourceType (m : EnumMatcher ResourceType)
  | resourcePool (m : StringMatcher)
  | resourceId (m : StringMatcher)
  | tag (m : StringMatcher)
  | remote (m : StringMatcher)

structure ViewConfig where
  id : String
  includeAll : Option Bool
  (includeRules excludeRules : List FilterRule)

structure ViewsConfig extends Lib.OrderedMap String ViewConfig where
  id_eq : ∀ p ∈ entries, p.2.id = p.1

def ViewsConfig.empty : ViewsConfig where
  toOrderedMap := Lib.OrderedMap.empty
  id_eq := List.forall_mem_nil _

structure ResourceData where
  resourceType : ResourceType
  tags : Option (List String)
  resourcePool : Option String
  resourceId : String

def Resource.toResourceData (r : Resource) : ResourceData :=
  match r with
  | .pveQemu g => ⟨r.resourceType, some g.tags, some g.pool, r.globalId⟩
  | .pveLxc g => ⟨r.resourceType, some g.tags, some g.pool, r.globalId⟩
  | .pveNode _ | .pveNetwork _ | .pbsNode _ | .pbsDatastore _ | .pveStorage _ =>
    ⟨r.resourceType, none, none, r.globalId⟩

def checkRule (remote : String) (data : ResourceData) : FilterRule → Bool
  | .resourceType m => m.matches data.resourceType
  | .resourcePool m => match data.resourcePool with
    | some pool => m.matches pool
    | none => false
  | .resourceId m => m.matches data.resourceId
  | .tag m => match data.tags with
    | some tags => tags.any m.matches
    | none => false
  | .remote m => m.matches remote

def checkRules (rules : List FilterRule) (remote : String) (data : ResourceData) : Bool :=
  rules.any (checkRule remote data)

def matchesRemoteRule (remote : String) : FilterRule → Bool
  | .remote m => m.matches remote
  | _ => false

theorem checkRule_of_matchesRemoteRule {remote rule} (h : matchesRemoteRule remote rule)
    (data) : checkRule remote data rule := by
  cases rule <;> simp_all [matchesRemoteRule, checkRule]

/-! ## The view -/

structure View where
  config : ViewConfig

def getView (views : ViewsConfig) (viewId : String) : Except ApiError View :=
  match views.get? viewId with
  | some config => .ok ⟨config⟩
  | none => .error (.other ("unknown view: " ++ viewId))

def getOptionalView (views : ViewsConfig) : Option String → Except ApiError (Option View)
  | none => .ok none
  | some viewId => (getView views viewId).map some

theorem getOptionalView_some {views id v} :
    getOptionalView views (some id) = .ok v ↔ ∃ config, (id, config) ∈ views.toOrderedMap ∧ v = some ⟨config⟩ := by
  simp only [getOptionalView, getView, ← Lib.OrderedMap.get?_eq_some]
  cases views.get? id <;> simp [Except.map, eq_comm]

namespace View

variable (v : View) (remote : String)

def includeAll : Bool := v.config.includeAll.getD false

def checkIfIncluded (data : ResourceData) : Bool :=
  if v.includeAll then true else checkRules v.config.includeRules remote data

def checkIfExcluded (data : ResourceData) : Bool := checkRules v.config.excludeRules remote data

def admits (data : ResourceData) : Bool := v.checkIfIncluded remote data && !v.checkIfExcluded remote data

def resourceMatches (resource : Resource) : Bool := v.admits remote resource.toResourceData

def nodeData (node : String) : ResourceData :=
  ⟨.node, none, none, "remote/" ++ remote ++ "/node/" ++ node⟩

def isNodeIncluded (node : String) : Bool := v.admits remote (nodeData remote node)

/-- A rule that is not a remote rule may pull in anything. -/
def noIncludeApplies : List FilterRule → Bool
  | [] => true
  | .remote m :: rules => if m.matches remote then false else noIncludeApplies rules
  | _ :: _ => false

def canSkipRemote : Bool :=
  if v.config.excludeRules.any (matchesRemoteRule remote) then true
  else if v.includeAll then false
  else noIncludeApplies remote v.config.includeRules

def isRemoteExplicitlyIncluded : Bool :=
  (if v.includeAll then true else v.config.includeRules.any (matchesRemoteRule remote))
    && !v.config.excludeRules.any (matchesRemoteRule remote)

variable {v remote}

theorem checkRules_eq_false_of_noIncludeApplies (data) : ∀ {rules},
    noIncludeApplies remote rules → checkRules rules remote data = false
  | [], _ => rfl
  | .remote m :: rules, h => by
    simp only [noIncludeApplies] at h
    split at h
    · cases h
    · next hm =>
      have ih := checkRules_eq_false_of_noIncludeApplies data h
      simp_all [checkRules, checkRule]
  | .resourceType _ :: _, h => by simp [noIncludeApplies] at h
  | .resourcePool _ :: _, h => by simp [noIncludeApplies] at h
  | .resourceId _ :: _, h => by simp [noIncludeApplies] at h
  | .tag _ :: _, h => by simp [noIncludeApplies] at h

theorem checkIfExcluded_of_remoteRule (h : v.config.excludeRules.any (matchesRemoteRule remote))
    (data) : v.checkIfExcluded remote data := by
  obtain ⟨rule, hmem, hrule⟩ := List.any_eq_true.mp h
  exact List.any_eq_true.mpr ⟨rule, hmem, checkRule_of_matchesRemoteRule hrule data⟩

theorem admits_eq_false_of_canSkipRemote (h : v.canSkipRemote remote) (data) : v.admits remote data = false := by
  simp only [canSkipRemote] at h
  split at h
  · next hex => simp [admits, checkIfExcluded_of_remoteRule hex]
  · split at h
    · cases h
    · next hall => simp [admits, checkIfIncluded, hall, checkRules_eq_false_of_noIncludeApplies data h]

/-! ## Views of whole remotes -/

def MatchesEveryNode (remote : String) (rule : FilterRule) : Prop :=
  rule = .resourceType ⟨.node⟩ ∨ matchesRemoteRule remote rule

theorem checkRule_nodeData_iff {rule node} : checkRule remote (nodeData remote node) rule ↔
      MatchesEveryNode remote rule ∨ rule = .resourceId (.exact (nodeData remote node).resourceId) := by
  cases rule with
  | resourceType m => cases m; simp [checkRule, MatchesEveryNode, matchesRemoteRule, EnumMatcher.matches, nodeData]
  | resourcePool => simp [checkRule, MatchesEveryNode, matchesRemoteRule, nodeData]
  | resourceId m =>
    obtain ⟨value⟩ := m
    simp only [checkRule, MatchesEveryNode, matchesRemoteRule, StringMatcher.matches, beq_iff_eq]
    simpa using eq_comm
  | tag => simp [checkRule, MatchesEveryNode, matchesRemoteRule, nodeData]
  | remote => simp [checkRule, MatchesEveryNode, matchesRemoteRule]

/-- Some rule takes in or drops every node of the remote. -/
def CoversNodes (rules : List FilterRule) (remote : String) : Prop := ∃ rule ∈ rules, MatchesEveryNode remote rule

/-- A rule names the node by its resource id. -/
def NamesNode (rules : List FilterRule) (remote node : String) : Prop :=
  .resourceId (.exact (nodeData remote node).resourceId) ∈ rules

theorem checkRules_nodeData_iff {rules node} : checkRules rules remote (nodeData remote node) ↔
      CoversNodes rules remote ∨ NamesNode rules remote node := by
  simp only [checkRules, List.any_eq_true, checkRule_nodeData_iff]
  constructor
  · rintro ⟨rule, hmem, hevery | rfl⟩
    · exact .inl ⟨rule, hmem, hevery⟩
    · exact .inr hmem
  · rintro (⟨rule, hmem, hevery⟩ | hnamed)
    · exact ⟨rule, hmem, .inl hevery⟩
    · exact ⟨_, hnamed, .inr rfl⟩

/-- What a view needs for a node that its exclude rules do not drop with its remote. -/
def TakesIn (v : View) (remote node : String) : Prop :=
  (v.includeAll ∨ CoversNodes v.config.includeRules remote ∨ NamesNode v.config.includeRules remote node) ∧
    ¬ NamesNode v.config.excludeRules remote node

theorem isNodeIncluded_iff {node} : v.isNodeIncluded remote node ↔
    ¬ CoversNodes v.config.excludeRules remote ∧ TakesIn v remote node := by
  have excluded : v.checkIfExcluded remote (nodeData remote node) = false ↔
      ¬ (CoversNodes v.config.excludeRules remote ∨ NamesNode v.config.excludeRules remote node) := by
    rw [← checkRules_nodeData_iff, checkIfExcluded, Bool.not_eq_true]
  have included : v.checkIfIncluded remote (nodeData remote node) ↔ v.includeAll ∨
      CoversNodes v.config.includeRules remote ∨ NamesNode v.config.includeRules remote node := by
    rw [← checkRules_nodeData_iff, checkIfIncluded]
    cases v.includeAll <;> simp
  rw [isNodeIncluded, admits, Bool.and_eq_true, Bool.not_eq_true', excluded, included, TakesIn, not_or]
  exact and_left_comm

/-- The rules admit every node that the remote has or may get. -/
def AdmitsAllNodes (v : View) (remote : String) : Prop :=
  (v.includeAll ∨ CoversNodes v.config.includeRules remote) ∧
    ¬ CoversNodes v.config.excludeRules remote ∧ ∀ node, ¬ NamesNode v.config.excludeRules remote node

/-- Finitely many rules leave a node unnamed. -/
theorem exists_not_namesNode (rules : List FilterRule) (remote : String) : ∃ node, ¬ NamesNode rules remote node := by
  have injective : Function.Injective fun node => FilterRule.resourceId (.exact (nodeData remote node).resourceId) := by
    intro node node' h
    simpa [nodeData, String.append_right_inj] using h
  exact (rules.finite_toSet.preimage injective.injOn).exists_notMem

theorem admitsAllNodes_iff : AdmitsAllNodes v remote ↔ ∀ node, v.isNodeIncluded remote node := by
  simp only [isNodeIncluded_iff, TakesIn]
  constructor
  · rintro ⟨included, notCovered, notNamed⟩ node
    exact ⟨notCovered, included.imp_right .inl, notNamed node⟩
  · intro h
    obtain ⟨node, hnode⟩ := exists_not_namesNode v.config.includeRules remote
    refine ⟨?_, (h node).1, fun node => (h node).2.2⟩
    rcases (h node).2.1 with all | covered | named
    · exact .inl all
    · exact .inr covered
    · exact absurd named hnode

end View

end Nexus
