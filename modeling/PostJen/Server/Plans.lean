import PostJen.Foundations.Protocol
import PostJen.Server.Steps

/-! What each task remembers of its own replies.

A plan is a protocol for the blocks with an assertion on the memory at each
control point. It speaks of one task alone, so it holds in every reachable
configuration whatever the other tasks do.
-/

set_option autoImplicit false

open PostJen.Foundations PostJen.Core

namespace PostJen.Server

structure Plan (G : Type) where
  protocol : Protocol Sig G
  expects : Point → G → Prop

namespace Plan

variable {G : Type} {ext : External} {settings : Settings} {c after : Config} {slot : Slot} {label : Label}

def Follows (P : Plan G) (thread : Thread Sig Point) (memory : G) : Prop :=
  thread.Holds (fun _ => P.protocol.discipline) P.expects memory

/-- Every block follows the plan, and a task that begins anew remembers nothing. -/
structure Valid (P : Plan G) (ext : External) (settings : Settings) : Prop where
  blocks : ∀ slot : Slot, ∀ point memory, slot.hosts point = true → P.expects point memory →
    P.Follows (enter ext settings point) memory
  begins : ∀ slot : Slot, ∀ point label, Entry label slot point → ∃ memory, P.expects point memory

def Kept (P : Plan G) (c : Config) : Prop := ∀ slot, ∃ memory, P.Follows (c.threads slot) memory

variable {P : Plan G}

theorem Kept.at (kept : P.Kept c) {op : Op} {rest : op.Reply → Proc Sig Empty Point}
    (next : (c.threads slot).code = .call op rest) :
    ∃ memory, P.Follows (c.threads slot) memory ∧ ∀ reply, P.protocol.permits memory op ∧
      P.Follows ⟨(c.threads slot).point, rest reply⟩ (P.protocol.advance op reply memory) := by
  obtain ⟨memory, follows⟩ := kept slot
  refine ⟨memory, follows, ?_⟩
  unfold Follows Thread.Holds at follows
  rw [next] at follows
  exact Protocol.holds_call.mp follows

theorem Valid.entered (valid : P.Valid ext settings) {point : Point} (hosted : slot.hosts point = true)
    (expected : ∃ memory, P.expects point memory) :
    ∃ memory, P.Follows (enter ext settings point) memory := by
  obtain ⟨memory, expected⟩ := expected
  exact ⟨memory, valid.blocks slot point memory hosted expected⟩

theorem Kept.step (valid : P.Valid ext settings) (placed : c.Placed) (kept : P.Kept c)
    (moved : step ext settings c label = some after) : P.Kept after := by
  intro slot
  have turn := thread_step moved slot
  generalize after.threads slot = thread at turn
  cases turn with
  | same _ => exact kept slot
  | @exec choice op rest reply state next ran =>
    obtain ⟨memory, -, goes⟩ := kept.at next
    exact ⟨_, (goes reply).2⟩
  | resume ended =>
    obtain ⟨memory, follows⟩ := kept slot
    exact valid.entered (placed.follows ended).1 ⟨memory, follows.at_point ended⟩
  | entered entry => exact valid.entered entry.hosted (valid.begins _ _ _ entry)

theorem Valid.sound (valid : P.Valid ext settings) {start : Config} {admits : Config → Label → Prop}
    (idle : ∀ slot, start.threads slot = enter ext settings .idle)
    (run : (system ext settings).Reaches admits start c) : P.Kept c := by
  have first : start.Placed ∧ P.Kept start := by
    have still : (system ext settings).Reaches admits start start := .refl start
    refine ⟨reached_placed idle still, fun slot => ?_⟩
    rw [idle]
    exact valid.entered slot.hosts_idle (valid.begins (.request 0) .idle _ (.drop 0))
  refine (run.invariant (fun c => c.Placed ∧ P.Kept c) first ?_).2
  rintro before label after ⟨placed, kept⟩ - moved
  exact ⟨placed_step placed (step_moved moved), kept.step valid placed moved⟩

end Plan

end PostJen.Server
