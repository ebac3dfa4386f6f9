import PostJen.Core.Acyclicity
import Mathlib.Data.List.TakeWhile

/-! Which definitions are accepted.

Every check of `validate` is one condition on the parsed definition; together
with the working directories they decide `resolve`. The timeouts of the nodes
are checked where they are written, not where they are inherited.
-/

set_option autoImplicit false

namespace PostJen.Core
open PostJen.Foundations

/-- `^[a-z][a-z0-9_-]*$`. -/
def MatchesId (value : String) : Prop :=
  ∃ first rest, value.toList = first :: rest ∧ ('a' ≤ first ∧ first ≤ 'z') ∧
    ∀ c ∈ rest, ('a' ≤ c ∧ c ≤ 'z') ∨ ('0' ≤ c ∧ c ≤ '9') ∨ c = '_' ∨ c = '-'

def Blank (text : String) : Prop := ∀ c ∈ text.toList, isWhiteSpace c = true

/-- The rules for a definition, but for the range of its timeouts. -/
structure JobDefinition.WellFormed (definition : JobDefinition) : Prop where
  version : definition.version = 1
  jobId : MatchesId definition.id
  name : ¬Blank definition.name
  nonempty : definition.nodes ≠ []
  nodeIds : ∀ node ∈ definition.nodes, MatchesId node.id
  programs : ∀ node ∈ definition.nodes, ¬Blank node.program
  outputs : ∀ node ∈ definition.nodes, ∀ output ∈ node.outputs.getD [], ¬Blank output.path
  sortable : Sortable definition.nodes
  acyclic : AcyclicNodes definition.nodes
  workingDirs : ∀ node ∈ definition.nodes, (node.workingDir.or (definition.defaults.getD {}).workingDir).isSome = true

def JobDefinition.effectiveTimeout (definition : JobDefinition) (node : NodeDefinition) : Nat :=
  node.timeoutSec.getD ((definition.defaults.getD {}).timeoutSec.getD 1800)

/-- The range of `node_runs.timeout_sec`. -/
def InRange (timeoutSec : Nat) : Prop := 1 ≤ timeoutSec ∧ timeoutSec ≤ 2 ^ 63 - 1

theorem isValidId_iff (value : String) : isValidId value = true ↔ MatchesId value := by
  have lower : ∀ c : Char, c.isLower = true ↔ 'a' ≤ c ∧ c ≤ 'z' := fun c =>
    Bool.and_eq_true_iff.trans (and_congr decide_eq_true_iff decide_eq_true_iff)
  have digit : ∀ c : Char, c.isDigit = true ↔ '0' ≤ c ∧ c ≤ '9' := fun c => by
    simp only [Char.isDigit, Bool.and_eq_true, decide_eq_true_eq]
    rfl
  unfold isValidId MatchesId
  cases value.toList with
  | nil => simp
  | cons first rest =>
    simp only [Bool.and_eq_true, List.all_eq_true, Bool.or_eq_true, decide_eq_true_eq, lower, digit, or_assoc,
      or_comm (a := (_ = '-')), List.cons.injEq]
    constructor
    · rintro ⟨here, all⟩
      exact ⟨first, rest, ⟨rfl, rfl⟩, here, all⟩
    · rintro ⟨_, _, ⟨rfl, rfl⟩, here, all⟩
      exact ⟨here, all⟩

theorem trim_eq_empty (text : String) : trim text = "" ↔ Blank text := by
  have empty : trim text = "" ↔ text.toList.dropWhile isWhiteSpace = [] := by
    unfold trim
    rw [← String.toList_inj, String.toList_ofList]
    constructor
    · intro none
      have all := List.dropWhile_eq_nil_iff.mp (List.reverse_eq_nil_iff.mp none)
      cases left : text.toList.dropWhile isWhiteSpace with
      | nil => rfl
      | cons c rest =>
        have first := List.head_dropWhile_not isWhiteSpace (l := text.toList) (by rw [left]; simp)
        simp only [left, List.head_cons] at first
        have white := all c (by rw [left]; simp)
        rw [white] at first
        cases first
    · intro none
      rw [none]
      rfl
  rw [empty, List.dropWhile_eq_nil_iff]
  rfl

/-! ## The checks -/

private theorem guarded_ok {A : Type} {refused : Prop} [Decidable refused] {why : String} {rest : Except String A}
    {value : A} : (if refused then .error why else rest) = .ok value ↔ ¬refused ∧ rest = .ok value := by
  split
  · rename_i bad
    simp [bad]
  · rename_i good
    simp [good]

structure NodeDefinition.Valid (node : NodeDefinition) : Prop where
  id : MatchesId node.id
  program : ¬Blank node.program
  timeoutSec : node.timeoutSec ≠ some 0
  outputs : ∀ output ∈ node.outputs.getD [], ¬Blank output.path

theorem validateNode_iff (node : NodeDefinition) : validateNode node = .ok () ↔ node.Valid := by
  have timeout : node.timeoutSec.getD 1 = 0 ↔ node.timeoutSec = some 0 := by
    cases node.timeoutSec <;> simp
  have outputs : ((node.outputs.getD []).any fun output => trim output.path = "") = true ↔
      ∃ output ∈ node.outputs.getD [], Blank output.path := by
    simp only [List.any_eq_true, decide_eq_true_eq, trim_eq_empty]
  simp only [validateNode, bind, Except.bind, throw, throwThe, MonadExceptOf.throw, pure, Except.pure,
    guarded_ok, trim_eq_empty, timeout, outputs, Bool.not_eq_true', Bool.not_eq_false, isValidId_iff]
  constructor
  · rintro ⟨id, program, timeoutSec, paths, -⟩
    exact ⟨id, program, timeoutSec, fun output member blank => paths ⟨output, member, blank⟩⟩
  · rintro ⟨id, program, timeoutSec, paths⟩
    refine ⟨id, program, timeoutSec, ?_, trivial⟩
    rintro ⟨output, member, blank⟩
    exact paths output member blank

theorem validateNodes_iff (nodes : List NodeDefinition) (seen : List String) :
    (∃ all, validateNodes seen nodes = .ok all) ↔
      (∀ node ∈ nodes, node.Valid ∧ node.id ∉ seen) ∧ (nodes.map (·.id)).Nodup := by
  induction nodes generalizing seen with
  | nil => simp [validateNodes]
  | cons node rest ih =>
    have unfolded : (∃ all, validateNodes seen (node :: rest) = .ok all) ↔
        node.Valid ∧ node.id ∉ seen ∧ ∃ all, validateNodes (node.id :: seen) rest = .ok all := by
      rw [← validateNode_iff]
      cases checked : validateNode node with
      | error why => simp [validateNodes, checked, bind, Except.bind]
      | ok _ => simp only [validateNodes, checked, bind, Except.bind, throw, throwThe, MonadExceptOf.throw,
          guarded_ok, exists_and_left, true_and]
    rw [unfolded, ih, List.map_cons, List.nodup_cons]
    constructor
    · rintro ⟨valid, fresh, each, distinct⟩
      refine ⟨?_, ?_, distinct⟩
      · intro other member
        rcases List.mem_cons.mp member with rfl | later
        · exact ⟨valid, fresh⟩
        · exact ⟨(each other later).1, fun inside => (each other later).2 (List.mem_cons_of_mem _ inside)⟩
      · intro listed
        obtain ⟨other, member, same⟩ := List.mem_map.mp listed
        exact (each other member).2 (by rw [same]; exact List.mem_cons_self)
    · rintro ⟨each, absent, distinct⟩
      refine ⟨(each node List.mem_cons_self).1, (each node List.mem_cons_self).2, ?_, distinct⟩
      intro other later
      refine ⟨(each other (List.mem_cons_of_mem _ later)).1, ?_⟩
      intro inside
      rcases List.mem_cons.mp inside with same | old
      · exact absent (List.mem_map.mpr ⟨other, later, same⟩)
      · exact (each other (List.mem_cons_of_mem _ later)).2 old

private theorem forM_iff {A : Type} (check : A → Except String Unit) (items : List A) :
    items.forM check = .ok () ↔ ∀ item ∈ items, check item = .ok () := by
  induction items with
  | nil => simp [List.forM, pure, Except.pure]
  | cons head rest ih =>
    simp only [List.forM, bind, Except.bind, List.forall_mem_cons]
    cases check head with
    | error why => simp
    | ok _ => simpa using ih

theorem validateDependencies_iff (seen : List String) (nodes : List NodeDefinition) :
    validateDependencies seen nodes = .ok () ↔ ∀ node ∈ nodes, ∀ dep ∈ node.needs, dep ∈ seen := by
  unfold validateDependencies
  simp only [forM_iff]
  refine forall₄_congr fun node _ dep _ => ?_
  split <;> simp [*]

theorem JobDefinition.validate_iff (definition : JobDefinition) :
    definition.validate = .ok () ↔ definition.version = 1 ∧ MatchesId definition.id ∧ ¬Blank definition.name ∧
      definition.nodes ≠ [] ∧ (∀ node ∈ definition.nodes, node.Valid) ∧ Sortable definition.nodes ∧
      AcyclicNodes definition.nodes := by
  -- the check of the dependencies and the sort are about ids that have been found distinct
  have sorted : (definition.nodes ≠ [] ∧ (∃ all, validateNodes [] definition.nodes = .ok all ∧
      validateDependencies all definition.nodes = .ok () ∧ ∃ order, topologicalOrder definition.nodes = .ok order)) ↔
      definition.nodes ≠ [] ∧ (∀ node ∈ definition.nodes, node.Valid) ∧ Sortable definition.nodes ∧
        AcyclicNodes definition.nodes := by
    refine and_congr_right fun _ => ?_
    constructor
    · rintro ⟨all, known, linked, order, sorted⟩
      have sortable : Sortable definition.nodes := by
        obtain ⟨distinct, -, mem⟩ := validateNodes_ok known
        refine ⟨distinct, fun node member dep needed => ?_⟩
        simpa using (mem dep).mp ((validateDependencies_iff _ _).mp linked node member dep needed)
      have each := ((validateNodes_iff _ _).mp ⟨all, known⟩).1
      exact ⟨fun node member => (each node member).1, sortable, (topologicalOrder_accepts sortable).mp ⟨order, sorted⟩⟩
    · rintro ⟨each, sortable, acyclic⟩
      obtain ⟨all, known⟩ := (validateNodes_iff definition.nodes []).mpr
        ⟨fun node member => ⟨each node member, by simp⟩, sortable.distinct⟩
      obtain ⟨-, -, mem⟩ := validateNodes_ok known
      refine ⟨all, known, (validateDependencies_iff _ _).mpr fun node member dep needed => ?_,
        (topologicalOrder_accepts sortable).mpr acyclic⟩
      exact (mem dep).mpr (.inl (sortable.known node member dep needed))
  rw [← sorted]
  simp only [validate, bind, Except.bind, throw, throwThe, MonadExceptOf.throw, pure, Except.pure, guarded_ok,
    trim_eq_empty, Bool.not_eq_true', Bool.not_eq_false, isValidId_iff, not_not, ne_eq]
  refine and_congr_right fun _ => and_congr_right fun _ => and_congr_right fun _ => and_congr_right fun _ => ?_
  cases validateNodes [] definition.nodes with
  | error why => simp
  | ok all =>
    cases linked : validateDependencies all definition.nodes with
    | error why => simp [linked]
    | ok _ => cases topologicalOrder definition.nodes <;> simp [linked]

/-! ## The resolution -/

theorem JobDefinition.resolveNode_iff (defaults : JobDefaults) (node : NodeDefinition) :
    (∃ resolved, resolveNode defaults node = .ok resolved) ↔ (node.workingDir.or defaults.workingDir).isSome = true := by
  unfold resolveNode
  cases node.workingDir.or defaults.workingDir <;> simp [throw, throwThe, MonadExceptOf.throw, pure, Except.pure]

theorem JobDefinition.resolveNodes_iff (defaults : JobDefaults) (byId : StringMap NodeDefinition) (order : List String) :
    (∃ resolved, resolveNodes defaults byId order = .ok resolved) ↔
      ∀ id ∈ order, ∃ node, byId.lookup id = some node ∧ (node.workingDir.or defaults.workingDir).isSome = true := by
  induction order with
  | nil => simp [resolveNodes]
  | cons id rest ih =>
    have unfolded : (∃ resolved, resolveNodes defaults byId (id :: rest) = .ok resolved) ↔
        (∃ node, byId.lookup id = some node ∧ ∃ resolved, resolveNode defaults node = .ok resolved) ∧
          ∃ resolved, resolveNodes defaults byId rest = .ok resolved := by
      cases found : byId.lookup id with
      | none => simp [resolveNodes, found, throw, throwThe, MonadExceptOf.throw]
      | some node =>
        cases made : resolveNode defaults node with
        | error why => simp [resolveNodes, found, made, bind, Except.bind]
        | ok resolved =>
          cases later : resolveNodes defaults byId rest <;>
            simp [resolveNodes, found, made, later, bind, Except.bind, pure, Except.pure]
    rw [unfolded, ih, List.forall_mem_cons]
    simp only [resolveNode_iff]

/-- `resolve` accepts exactly the well-formed definitions without a node whose own timeout is zero. -/
theorem JobDefinition.resolve_iff (definition : JobDefinition) :
    (∃ resolved, definition.resolve = .ok resolved) ↔
      definition.WellFormed ∧ ∀ node ∈ definition.nodes, node.timeoutSec ≠ some 0 := by
  have unfolded : (∃ resolved, definition.resolve = .ok resolved) ↔
      definition.validate = .ok () ∧ ∃ order, topologicalOrder definition.nodes = .ok order ∧
        ∃ nodes, resolveNodes (definition.defaults.getD {}) (nodesById definition.nodes) order = .ok nodes := by
    cases checked : definition.validate with
    | error why => simp [resolve, checked, bind, Except.bind]
    | ok _ =>
      cases sorted : topologicalOrder definition.nodes with
      | error why => simp [resolve, checked, sorted, bind, Except.bind]
      | ok order =>
        cases resolved : resolveNodes (definition.defaults.getD {}) (nodesById definition.nodes) order <;>
          simp [resolve, checked, sorted, resolved, bind, Except.bind, pure, Except.pure]
  -- behind the sort only a missing working directory is left to fail
  have directories : ∀ order, Sortable definition.nodes → topologicalOrder definition.nodes = .ok order →
      ((∃ nodes, resolveNodes (definition.defaults.getD {}) (nodesById definition.nodes) order = .ok nodes) ↔
        ∀ node ∈ definition.nodes,
          (node.workingDir.or (definition.defaults.getD {}).workingDir).isSome = true) := by
    intro order sortable sorted
    obtain ⟨perm, -⟩ := topologicalOrder_sound sortable sorted
    rw [resolveNodes_iff]
    constructor
    · intro each node member
      obtain ⟨other, found, directory⟩ := each node.id (perm.mem_iff.mpr (List.mem_map_of_mem member))
      rw [lookup_nodesById sortable member, Option.some.injEq] at found
      rw [found]
      exact directory
    · intro each id listed
      obtain ⟨node, member, rfl⟩ := List.mem_map.mp (perm.mem_iff.mp listed)
      exact ⟨node, lookup_nodesById sortable member, each node member⟩
  rw [unfolded, validate_iff]
  constructor
  · rintro ⟨⟨version, jobId, name, nonempty, valid, sortable, acyclic⟩, order, sorted, nodes⟩
    exact ⟨⟨version, jobId, name, nonempty, fun node member => (valid node member).id,
      fun node member => (valid node member).program, fun node member => (valid node member).outputs, sortable, acyclic,
      (directories order sortable sorted).mp nodes⟩, fun node member => (valid node member).timeoutSec⟩
  · rintro ⟨formed, timeouts⟩
    obtain ⟨order, sorted⟩ := (topologicalOrder_accepts formed.sortable).mpr formed.acyclic
    refine ⟨⟨formed.version, formed.jobId, formed.name, formed.nonempty, fun node member => ?_, formed.sortable,
      formed.acyclic⟩, order, sorted, (directories order formed.sortable sorted).mpr formed.workingDirs⟩
    exact ⟨formed.nodeIds node member, formed.programs node member, timeouts node member, formed.outputs node member⟩

private theorem forall₂_mem {A B : Type} {R : A → B → Prop} {left : List A} {right : List B}
    (related : List.Forall₂ R left right) {item : B} (member : item ∈ right) : ∃ other ∈ left, R other item := by
  induction related with
  | nil => cases member
  | cons here _ ih =>
    rcases List.mem_cons.mp member with rfl | later
    · exact ⟨_, List.mem_cons_self, here⟩
    · obtain ⟨other, inside, holds⟩ := ih later
      exact ⟨other, List.mem_cons_of_mem _ inside, holds⟩

theorem JobDefinition.resolve_source {definition : JobDefinition} {resolved : ResolvedJobDefinition}
    (accepted : definition.resolve = .ok resolved) {node : ResolvedNodeDefinition} (member : node ∈ resolved.nodes) :
    ∃ source ∈ definition.nodes, resolveNode (definition.defaults.getD {}) source = .ok node := by
  obtain ⟨valid, order, sorted, each⟩ := resolve_ok accepted
  obtain ⟨sortable, -⟩ := validate_ok valid
  obtain ⟨perm, -⟩ := topologicalOrder_sound sortable sorted
  obtain ⟨id, listed, found, present, made⟩ := forall₂_mem (resolveNodes_ok each) member
  obtain ⟨source, inside, rfl⟩ := List.mem_map.mp (perm.mem_iff.mp listed)
  rw [lookup_nodesById sortable inside, Option.some.injEq] at present
  subst present
  exact ⟨source, inside, made⟩

theorem JobDefinition.resolveNode_timeout {definition : JobDefinition} {source : NodeDefinition}
    {node : ResolvedNodeDefinition} (made : resolveNode (definition.defaults.getD {}) source = .ok node) :
    node.timeoutSec = definition.effectiveTimeout source := by
  unfold resolveNode at made
  split at made
  · cases made
    rfl
  · cases made

end PostJen.Core
