import PostJen.Server.Steps

/-! Rules for the procedures of a block.

They cover the wrappers around every block and the statements that only read;
a procedure that writes nothing a rule cares about is left to `Within.holds`.
-/

set_option autoImplicit false

open PostJen.Foundations PostJen.Core

namespace PostJen.Server

/-! ## Wrappers -/

section
variable {S : Type} {D : Discipline Sig S} {ends : Point → S → Prop} {s : S}

theorem holds_otherwise {point : Point} {body : Proc Sig AnyError Point}
    (holds : body.Holds D ends (fun _ => ends point) s) :
    (otherwise point body).Holds D ends (fun why _ => why.elim) s := by
  refine (Proc.holds_bind _ _ _).mpr ((Proc.holds_attempt _ _).mpr (holds.mono ?_ ?_))
  · exact fun next s there => there
  · exact fun why s home => home

def Answer.point : Answer → Point
  | .response reply => .responded (.ok reply)
  | .picked task outputs => .picked task outputs

theorem holds_respond {body : Proc Sig ApiError Answer}
    (holds : body.Holds D (fun answer => ends answer.point) (fun why => ends (.responded (.error why))) s) :
    (respond body).Holds D ends (fun why _ => why.elim) s := by
  refine (Proc.holds_bind _ _ _).mpr ((Proc.holds_attempt _ _).mpr (holds.mono ?_ ?_))
  · rintro (response | ⟨task, outputs⟩) s there
    · exact there
    · exact there
  · exact fun why s there => there

end

/-! ## Statements -/

def Quiet (op : Op) : Prop := ∀ id change, op ≠ .write (.updateNode id change)

theorem quiet_read {op : Op} (reads : op.writes = false) : Quiet op := by
  rintro id change rfl
  cases reads

theorem quiet_minor {op : Op} (minor : op.minor = true) : Quiet op := by
  rintro id change rfl
  cases minor

theorem quiet_event (event : NewEvent) : Quiet (.write (.event event)) := quiet_minor rfl

theorem quiet_updateJob (runId : Nat) (change : JobChange) : Quiet (.write (.updateJob runId change)) :=
  fun _ _ same => by cases same

/-- A discipline whose operations act on the server's state itself. -/
def serving (ext : External) (rely : State → State → Prop) (guarantee : Op → State → State → Prop) :
    Discipline Sig State where
  exec op := op.exec ext
  rely
  guarantee

section
variable {ext : External} {rely : State → State → Prop} {guarantee : Op → State → State → Prop}
  {E A : Type} {post : A → State → Prop} {failed : E → State → Prop} {s : State}

theorem holds_query [FromSql E] (assertion : State → Prop) {query : Select} {post : query.Row → State → Prop}
    (stable : ∀ before after, rely before after → assertion before → assertion after)
    (promises : ∀ s, guarantee (.select query) s s) (now : assertion s)
    (next : ∀ row s, assertion s → row ∈ query.answers s.db → post row s)
    (fails : ∀ why s, assertion s → failed why s) :
    (fetch query).Holds (serving ext rely guarantee) post failed s := by
  intro before moved reply after ran
  obtain ⟨rfl, answer⟩ := exec_select ran
  have now := stable s after moved now
  refine ⟨promises after, ?_⟩
  rcases answer with ⟨why, rfl⟩ | ⟨row, member, rfl⟩
  · exact fails _ after now
  · exact next row after now member

theorem holds_answer [FromSql E] {query : Select} {post : query.Row → State → Prop}
    (promises : ∀ s, guarantee (.select query) s s)
    (next : ∀ row s, row ∈ query.answers s.db → post row s) (fails : ∀ why s, failed why s) :
    (fetch query).Holds (serving ext rely guarantee) post failed s :=
  holds_query (fun _ => True) (fun _ _ _ _ => trivial) promises trivial (fun row s _ => next row s)
    fun why s _ => fails why s

end

/-! ## Answers of queries -/

theorem mem_limitOne {A : Type} {rows : List A} {before : A → A → Bool} {row : A}
    (member : some row ∈ limitOne rows before) : row ∈ rows := by
  unfold limitOne at member
  split at member
  · simp at member
  · obtain ⟨other, inside, same⟩ := List.mem_map.mp member
    cases same
    exact List.mem_of_mem_filter inside

theorem mem_anyOne {A : Type} {rows : List A} {row : A} (member : some row ∈ anyOne rows) : row ∈ rows :=
  mem_limitOne member

theorem mem_queuedTask {db : Db} {agentId : String} {task : Task}
    (member : some task ∈ (Select.queuedTask agentId).answers db) :
    ∃ node, db.nodeRuns.find task.nodeRunId = some node ∧ node.status = .queued ∧
      node.assignedAgentId = some agentId := by
  obtain ⟨picked, listed, same⟩ := List.mem_map.mp member
  obtain ⟨⟨stamp, other⟩, rfl, rfl⟩ := Option.map_eq_some_iff.mp same
  obtain ⟨⟨id, node⟩, inside, found⟩ := List.mem_filterMap.mp (mem_limitOne listed)
  dsimp only at found
  split at found
  · rename_i queued
    obtain ⟨task', made, same⟩ := Option.map_eq_some_iff.mp found
    cases same
    obtain ⟨run, -, rfl⟩ := Option.map_eq_some_iff.mp made
    exact ⟨node, Serial.find_eq_some.mpr inside, queued⟩
  · cases found

theorem mem_offlineNodes {db : Db} {nodes : List OfflineNodeRun} {lost : OfflineNodeRun}
    (member : nodes ∈ Select.offlineNodes.answers db) (listed : lost ∈ nodes) :
    ∃ node, db.nodeRuns.find lost.id = some node ∧ node.lost db = true := by
  have order := (List.mem_permutations'.mp member).mem_iff.mp listed
  obtain ⟨⟨id, node⟩, inside, rfl⟩ := List.mem_map.mp order
  obtain ⟨inside, isLost⟩ := List.mem_filter.mp inside
  exact ⟨node, Serial.find_eq_some.mpr inside, isLost⟩

end PostJen.Server
