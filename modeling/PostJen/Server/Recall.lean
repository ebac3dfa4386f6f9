import PostJen.Server.Steps

/-! What a task has learned since its block began.

Each fact stands for an event of the task's own steps. A block is checked once
against the facts that its replies teach; at every statement of a run, what the
task may rely on has then happened in the history since it entered the block.
-/

set_option autoImplicit false

open PostJen.Foundations PostJen.Core

namespace PostJen.Server

theorem Point.hosted (point : Point) : ∃ slot : Slot, slot.hosts point = true := by
  cases point with
  | workerTick | pickedLocal _ => exact ⟨.localWorker, rfl⟩
  | localTask _ => exact ⟨.localTask 0, rfl⟩
  | monitorTick | sweep _ => exact ⟨.monitor, rfl⟩
  | cronTick | cron _ _ => exact ⟨.cron, rfl⟩
  | received _ | picked _ _ | responded _ => exact ⟨.request 0, rfl⟩
  | _ => exact ⟨.scheduler, rfl⟩

structure Recall (F : Type) where
  event : F → Slot → Config → Label → Config → Prop
  teaches : Point → (op : Op) → op.Reply → F → Prop
  permits : Point → Op → (F → Prop) → Prop

namespace Recall

variable {F : Type} {ext : External} {settings : Settings} {start c after : Config}
  {admits : Config → Label → Prop} {history : List Label} {slot : Slot}

def discipline (R : Recall F) (point : Point) : Discipline Sig (F → Prop) where
  exec op before reply after := ∀ fact, before fact ∨ R.teaches point op reply fact → after fact
  rely before after := ∀ fact, before fact → after fact
  guarantee op before _ := R.permits point op before

structure Valid (R : Recall F) (ext : External) (settings : Settings) : Prop where
  blocks : ∀ point known, (block ext settings point).Holds (R.discipline point) (fun _ _ => True)
    (fun why _ => why.elim) known
  learns : ∀ (slot : Slot) (c : Config) (choice : Choice) (after : Config) (op : Op) (reply : op.Reply) (fact : F),
    c.pending slot = some op → op.run ext choice c.state = some (reply, after.state) →
    R.teaches (c.threads slot).point op reply fact → R.event fact slot c (.exec slot choice) after

variable {R : Recall F}

theorem holds_free {point : Point} {E A : Type} {allowed : Op → Prop} {ends : A → Prop} {program : Proc Sig E A}
    (within : program.Within allowed ends) (free : ∀ op known, allowed op → R.permits point op known)
    (known : F → Prop) :
    program.Holds (R.discipline point) (fun value _ => ends value) (fun _ _ => True) known := by
  have stable : (R.discipline point).Stable fun _ => True := fun _ _ _ _ => trivial
  exact (within.holds stable (fun op before _ _ may _ _ => ⟨free op before may, trivial⟩) trivial).mono
    (fun _ _ ended => ended.1) fun _ _ _ => trivial

theorem preorder (R : Recall F) (point : Point) : (R.discipline point).Preorder :=
  ⟨fun _ _ holds => holds, fun _ _ _ first second fact holds => second fact (first fact holds)⟩

variable (R) in
def watch (slot : Slot) : Watch ext settings start admits slot (F → Prop) where
  view history c fact := Current ext settings start admits slot (R.event fact slot) history c
  discipline := R.discipline
  assertion _ _ := True

theorem watch_valid (valid : R.Valid ext settings) (slot : Slot) :
    (R.watch slot : Watch ext settings start admits slot (F → Prop)).Valid where
  refl := fun point => (R.preorder point).refl
  blocks := fun point known _ => valid.blocks point known
  runs := by
    rintro history c choice after op rest reply run admitted moved next ran fact (before | taught)
    · exact before.keep moved (by simp) (fun _ entry => by cases entry)
    · exact .now run admitted moved (valid.learns slot c choice after op reply fact
        (pending_eq_some.mpr ⟨rest, next⟩) ran taught)
  resumes := fun _ _ _ _ _ _ _ _ _ => trivial
  suffers := by
    intro history c label after run admitted moved notExec entry other holds
    exact Thread.Holds.rely (R.preorder _) (fun _ _ _ _ holds => holds) holds
      fun fact current => current.keep moved other entry
  enters := fun _ _ _ _ _ _ _ _ _ => trivial
  idle := trivial

/-- A statement is permitted by what has happened since its block began. -/
theorem Valid.permitted (valid : R.Valid ext settings) (idle : start.threads slot = enter ext settings .idle)
    (run : (system ext settings).Path admits start history c) {choice : Choice} {op : Op}
    (admitted : admits c (.exec slot choice)) (moved : step ext settings c (.exec slot choice) = some after)
    (next : c.pending slot = some op) :
    R.permits (c.threads slot).point op fun fact =>
      Current ext settings start admits slot (R.event fact slot) history c := by
  have watched : (R.watch slot : Watch ext settings start admits slot (F → Prop)).Valid := watch_valid valid slot
  obtain ⟨op', rest, reply, code, next', ran, -⟩ := step_exec moved
  cases next.symm.trans next'
  exact watched.guaranteed (watched.sound idle run) run admitted moved code ran

end Recall

end PostJen.Server
