import PostJen.Server.Creations
import PostJen.Server.Sample

/-! The parameters that a run is created with.

`start_run` and `webhook_trigger` resolve the declared parameters before they
insert the run; the cron scheduler inserts its runs without any. What a row was
inserted with it keeps.
-/

set_option autoImplicit false

open PostJen.Foundations PostJen.Core

namespace PostJen.Server

/-- The parameters that a trigger supplies. -/
def Point.supplied : Point → StringMap String
  | .received (.startRun _ payload) => payload.params.getD ∅
  | .received (.webhookTrigger _ payload) => (payload.bind (·.params)).getD ∅
  | _ => ∅

/-- The stored text has a declared parameter as it was supplied, or else its default. -/
structure Holding (param : ParamDefinition) (supplied stored : StringMap String) : Prop where
  given : ∀ value, supplied.lookup param.name = some value → stored.lookup param.name = some value
  filled : supplied.lookup param.name = none → ∀ value, param.default = some value → stored.lookup param.name = some value
  needed : supplied.lookup param.name = none → param.required = true → param.default.isSome = true

/-- The column encodes all parameters that are declared, and none that is required is missing. -/
def Complete (ext : External) (params : List ParamDefinition) (supplied : StringMap String)
    (paramsJson : Option String) : Prop :=
  ∃ stored, paramsJson = encodeParams ext stored ∧ ∀ param ∈ params, Holding param supplied stored

/-- A parameter that a trigger without parameters would have to fill in, or to refuse. -/
def Demanding (params : List ParamDefinition) : Prop :=
  ∃ param ∈ params, param.required = true ∨ param.default.isSome = true

def Point.scheduled : Point → Bool
  | .cron _ _ => true
  | _ => false

/-- When the parameters of a new run are complete, and that its row keeps them. -/
structure CompleteParameters (ext : External) (settings : Settings) (start : Config) : Prop where
  created : ∀ history c slot choice after new, (system ext settings).Path everything start history c →
    step ext settings c (.exec slot choice) = some after → c.pending slot = some (.transact (.createRun new)) →
    new.rerunOfJobRunId = none → ∃ definition,
      Current ext settings start everything slot
        (fun before label _ => Reads ext slot before label (.definition new.definitionPath definition)) history c ∧
      ((definition.params.map (·.name)).Nodup →
        (Complete ext definition.params (c.threads slot).point.supplied new.paramsJson ↔
          ((c.threads slot).point.scheduled = true → ¬Demanding definition.params)))
  stored : ∀ history c id row, (system ext settings).Path everything start history c →
    c.state.db.jobRuns.find id = some row → ∃ new,
      (system ext settings).Happened everything start (CreatesRun id new) history ∧
        row.paramsJson = new.paramsJson ∧ row.rerunOfJobRunId = new.rerunOfJobRunId

namespace Parameters

theorem resolve_other {supplied resolved stored : StringMap String} {params : List ParamDefinition} {name : String}
    (ended : resolveParams supplied params resolved = .ok stored) (other : name ∉ params.map (·.name)) :
    stored.lookup name = resolved.lookup name := by
  induction params generalizing resolved with
  | nil =>
    cases ended
    rfl
  | cons param rest ih =>
    rw [List.map_cons, List.mem_cons, not_or] at other
    obtain ⟨ne, other⟩ := other
    unfold resolveParams at ended
    split at ended
    · rw [ih ended other, lookup_insert_ite, if_neg ne]
    · split at ended
      · rw [ih ended other, lookup_insert_ite, if_neg ne]
      · split at ended
        · cases ended
        · exact ih ended other

theorem resolve_holding {supplied resolved stored : StringMap String} {params : List ParamDefinition}
    (distinct : (params.map (·.name)).Nodup) (ended : resolveParams supplied params resolved = .ok stored) :
    ∀ param ∈ params, Holding param supplied stored := by
  -- the name is set at its own turn, and later turns are for other names
  induction params generalizing resolved with
  | nil => exact fun _ member => nomatch member
  | cons param rest ih =>
    rw [List.map_cons, List.nodup_cons] at distinct
    obtain ⟨fresh, distinct⟩ := distinct
    unfold resolveParams at ended
    split at ended
    · rename_i value given
      refine List.forall_mem_cons.mpr ⟨?_, ih distinct ended⟩
      have kept : stored.lookup param.name = some value := by
        rw [resolve_other ended fresh, lookup_insert_ite, if_pos rfl]
      refine ⟨fun other found => ?_, fun absent => ?_, fun absent => ?_⟩
      · rw [kept, ← given, found]
      · rw [given] at absent
        cases absent
      · rw [given] at absent
        cases absent
    · rename_i missing
      split at ended
      · rename_i value defaulted
        refine List.forall_mem_cons.mpr ⟨?_, ih distinct ended⟩
        refine ⟨fun other found => ?_, fun _ other found => ?_, fun _ _ => ?_⟩
        · rw [missing] at found
          cases found
        · rw [resolve_other ended fresh, lookup_insert_ite, if_pos rfl, ← defaulted, found]
        · rw [defaulted]
          rfl
      · rename_i undefaulted
        split at ended
        · cases ended
        · rename_i optional
          refine List.forall_mem_cons.mpr ⟨?_, ih distinct ended⟩
          refine ⟨fun other found => ?_, fun _ other found => ?_, fun _ needed => absurd needed optional⟩
          · rw [missing] at found
            cases found
          · rw [undefaulted] at found
            cases found

theorem lookup_encodes_none {ext : External} {stored : StringMap String} (encoded : none = encodeParams ext stored)
    (name : String) : stored.lookup name = none := by
  have isEmpty : stored.entries = [] := by
    by_contra filled
    rw [encodeParams, if_neg filled] at encoded
    cases encoded
  rw [show stored = ∅ from AList.ext isEmpty, AList.lookup_empty]

theorem complete_none {ext : External} {params : List ParamDefinition} :
    Complete ext params ∅ none ↔ ¬Demanding params := by
  constructor
  · rintro ⟨stored, encoded, holding⟩ ⟨param, member, demands⟩
    have held := holding param member
    have hasDefault : param.default.isSome = true := by
      rcases demands with required | hasDefault
      · exact held.needed (AList.lookup_empty _) required
      · exact hasDefault
    obtain ⟨value, defaulted⟩ := Option.isSome_iff_exists.mp hasDefault
    have kept := held.filled (AList.lookup_empty _) value defaulted
    rw [lookup_encodes_none encoded] at kept
    cases kept
  · intro modest
    refine ⟨∅, rfl, fun param member => ⟨fun value found => ?_, fun _ value defaulted => ?_, fun _ required => ?_⟩⟩
    · rw [AList.lookup_empty] at found
      cases found
    · exact absurd ⟨param, member, .inr (defaulted ▸ rfl)⟩ modest
    · exact absurd ⟨param, member, .inl required⟩ modest

end Parameters

theorem complete_parameters (ext : External) (settings : Settings) (files : String → Option String) (clock : Nat) :
    CompleteParameters ext settings (Config.initial ext settings files clock) where
  created := by
    intro history c slot choice after new run moved next fresh
    have made := path_made (Config.initial_idle ext settings files clock slot) run trivial moved next
    generalize (c.threads slot).point = point at made
    cases made with
    | startRun jobId payload job definition resolved loaded resolves =>
      refine ⟨definition, loaded, fun distinct => ⟨fun _ scheduled => (by cases scheduled), fun _ => ?_⟩⟩
      exact ⟨resolved, rfl, Parameters.resolve_holding distinct resolves⟩
    | webhookTrigger jobId payload job definition resolved loaded resolves =>
      refine ⟨definition, loaded, fun distinct => ⟨fun _ scheduled => (by cases scheduled), fun _ => ?_⟩⟩
      exact ⟨resolved, rfl, Parameters.resolve_holding distinct resolves⟩
    | rerunRun runId source read => cases fresh
    | cron now job todo definition loaded =>
      refine ⟨definition, loaded, fun _ => ?_⟩
      exact Parameters.complete_none.trans ⟨fun modest _ => modest, fun modest => modest rfl⟩
  stored := by
    intro history c id row run found
    obtain ⟨new, created, made⟩ := path_created (fun _ => rfl) run found
    refine ⟨new, created, ?_, ?_⟩
    · show row.snapshot.paramsJson = _
      rw [made]
      rfl
    · show row.snapshot.rerunOfJobRunId = _
      rw [made]
      rfl

/-! ## A scheduled run without its defaults -/

namespace Sample

def nightlyYaml : String :=
"version: 1
id: nightly
name: Nightly
defaults:
  working_dir: /tmp
params:
  - name: BRANCH
    default: main
triggers:
  cron: 0 * * * * *
nodes:
  - id: build
    program: make
"

def nightly : JobDefinition where
  version := 1
  id := "nightly"
  name := "Nightly"
  defaults := some { workingDir := some "/tmp" }
  params := some [⟨"BRANCH", some "main", false⟩]
  triggers := some ⟨some "0 * * * * *", false⟩
  nodes := [{ id := "build", program := "make" }]

def scheduling : External where
  __ := ext
  parseYaml text := if text = nightlyYaml then .ok nightly else .error "missing field version"
  encodeTriggers triggers := triggers.cron.getD ""
  decodeCron text := some text
  schedule _ := some fun instant => some ((instant / 60000 + 1) * 60000)

def nightlyFiles (path : String) : Option String := if path = "nightly.yaml" then some nightlyYaml else none

def nightlyFired : List Label :=
  [.boot "localhost"] ++ serve 0 (.registerJob "nightly.yaml" none) 4 ++ turns .cron 2 ++ [.resume .cron] ++
    turns .cron 2

theorem scheduling_resolves {contents : String} {definition : ResolvedJobDefinition}
    (resolves : scheduling.Resolves contents definition) : definition.params = [⟨"BRANCH", some "main", false⟩] := by
  obtain ⟨source, parsed, accepted⟩ := resolves
  have isNightly : source = nightly := by
    simp only [scheduling] at parsed
    split at parsed
    · exact (Except.ok.inj parsed).symm
    · cases parsed
  have params : nightly.resolve.toOption.map (·.params) = some [⟨"BRANCH", some "main", false⟩] := by decide +kernel
  rw [isNightly] at accepted
  rw [accepted] at params
  exact Option.some.inj params

end Sample

theorem complete_parameters_scheduled : ¬∀ ext settings files clock history c slot choice after new,
    (system ext settings).Path everything (Config.initial ext settings files clock) history c →
    step ext settings c (.exec slot choice) = some after → c.pending slot = some (.transact (.createRun new)) →
    new.rerunOfJobRunId = none → ∃ definition,
      Current ext settings (Config.initial ext settings files clock) everything slot
        (fun before label _ => Reads ext slot before label (.definition new.definitionPath definition)) history c ∧
      ((definition.params.map (·.name)).Nodup →
        Complete ext definition.params (c.threads slot).point.supplied new.paramsJson) := by
  intro claim
  have passed : ((system Sample.scheduling Sample.settings).follow (fun _ _ => true)
      (Config.initial Sample.scheduling Sample.settings Sample.nightlyFiles 1000000) Sample.nightlyFired).any (fun c =>
        (c.state.db.jobRuns.find 1).any fun row => row.rerunOfJobRunId.isNone && row.paramsJson.isNone) = true := by
    decide +kernel
  obtain ⟨c, followed, passed⟩ := (Option.any_eq_true _ _).mp passed
  obtain ⟨row, found, passed⟩ := (Option.any_eq_true _ _).mp passed
  rw [Bool.and_eq_true, Option.isNone_iff_eq_none, Option.isNone_iff_eq_none] at passed
  obtain ⟨history, run⟩ := ((system Sample.scheduling Sample.settings).follow_reaches
    (fun _ _ _ => trivial) followed : (system _ _).Reaches everything _ c).path
  obtain ⟨new, created, made⟩ := path_created (fun _ => rfl) run found
  have unparametrized : new.paramsJson = none := by
    rw [← passed.2]
    show (new.row row.createdAt).paramsJson = row.snapshot.paramsJson
    rw [made]
  have fresh : new.rerunOfJobRunId = none := by
    rw [← passed.1]
    show (new.row row.createdAt).rerunOfJobRunId = row.snapshot.rerunOfJobRunId
    rw [made]
  obtain ⟨recent, label, earlier, before, after, -, path, -, moved, slot, choice, rfl, next, -, -⟩ := created
  obtain ⟨definition, loaded, complete⟩ := claim _ _ _ _ _ _ _ _ _ _ path moved next fresh
  obtain ⟨_, _, _, _, _, _, _, _, _, -, -, contents, -, resolves⟩ := loaded.happened
  have params := Sample.scheduling_resolves resolves
  rw [params, unparametrized] at complete
  obtain ⟨stored, encoded, holding⟩ := complete (by decide)
  have held := holding _ List.mem_cons_self
  have absent := Parameters.lookup_encodes_none encoded "BRANCH"
  cases supplied : (before.threads slot).point.supplied.lookup "BRANCH" with
  | some value => cases absent.symm.trans (held.given value supplied)
  | none => cases absent.symm.trans (held.filled supplied "main" rfl)

end PostJen.Server
