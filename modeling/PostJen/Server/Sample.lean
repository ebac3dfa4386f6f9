import PostJen.Foundations.Json
import PostJen.Server.System

/-! A concrete server for witnesses and counterexamples.

It knows two definitions, one of local nodes and one for a remote agent, and
computes the library functions on the few texts that its schedules meet.
-/

set_option autoImplicit false

open PostJen.Foundations PostJen.Core

namespace PostJen.Server.Sample

def forkYaml : String :=
"version: 1
id: fork
name: Fork
defaults:
  working_dir: /tmp
nodes:
  - id: build
    program: make
  - id: lint
    program: clippy
  - id: deploy
    program: rsync
    depends_on: [build]
"

def remoteYaml : String :=
"version: 1
id: remote
name: Remote
defaults:
  working_dir: /tmp
nodes:
  - id: hello
    program: hostname
    target:
      labels: [test]
"

def fork : JobDefinition where
  version := 1
  id := "fork"
  name := "Fork"
  defaults := some { workingDir := some "/tmp" }
  nodes := [
    { id := "build", program := "make" },
    { id := "lint", program := "clippy" },
    { id := "deploy", program := "rsync", dependsOn := some ["build"] }]

def remote : JobDefinition where
  version := 1
  id := "remote"
  name := "Remote"
  defaults := some { workingDir := some "/tmp" }
  nodes := [{ id := "hello", program := "hostname", target := some ⟨none, ["test"]⟩ }]

def token : String := hexEncode (List.replicate 32 0)

def sha256Hex (text : String) : String :=
  if text = forkYaml then "fa5b806c6517887db990625992d55af38e72b2cbb904042c34770678a23e419d"
  else if text = remoteYaml then "860d617b9d91d3727613556390b2183ceb494fdc92b534f15c647c5e479566d3"
  else if text = localAgentId then "25bf8e1a2393f1108d37029b3df5593236c755742ec93465bbafa9b290bddcf6"
  else if text = token then "60e05bd1b195af2f94112fa7197a5c88289058840ce7c6df9693756bc6250f55"
  else "sha256 of " ++ text

def ext : External where
  parseYaml text :=
    if text = forkYaml then .ok fork
    else if text = remoteYaml then .ok remote
    else .error "missing field version"
  sha256Hex
  encodeStrings texts := "[" ++ ",".intercalate (texts.map fun text => "\"" ++ text ++ "\"") ++ "]"
  decodeStrings text :=
    if text = "[]" then some []
    else if text = "[\"local\"]" then some ["local"]
    else if text = "[\"test\"]" then some ["test"]
    else none
  encodeMap map := "\x7b" ++ ",".intercalate (map.entries.map fun entry =>
    "\"" ++ entry.1 ++ "\":\"" ++ entry.2 ++ "\"") ++ "\x7d"
  decodeMap _ := none
  encodeTarget target := "\x7b\"agent\":" ++ (target.agent.elim "null" fun name => "\"" ++ name ++ "\"") ++
    ",\"labels\":[" ++ ",".intercalate (target.labels.map fun label => "\"" ++ label ++ "\"") ++ "]\x7d"
  encodeTriggers _ := ""
  decodeCron _ := none
  schedule _ := none
  encrypt _ value _ := .ok value
  decrypt _ secret := .ok secret.encryptedValue

def zeros (count : Nat) : List (Fin 256) := List.replicate count ⟨0, Nat.zero_lt_succ 255⟩

def settings : Settings := ⟨"artifacts", none⟩

def keyed : Settings := ⟨"artifacts", some (hexEncode (zeros 32))⟩

def files (path : String) : Option String :=
  if path = "fork.yaml" then some forkYaml
  else if path = "remote.yaml" then some remoteYaml
  else none

def initial : Config := Config.initial ext settings files 1000000

/-- Follow a schedule from the start, as long as every step passes the check. -/
def run (check : Config → Label → Bool) (labels : List Label) : Option Config :=
  (system ext settings).follow check initial labels

theorem reached {check : Config → Label → Bool} {labels : List Label} {c : Config}
    (followed : run check labels = some c) :
    (system ext settings).Reaches (fun c label => check c label = true) initial c :=
  (system ext settings).follow_reaches (fun _ _ checked => checked) followed

theorem reached_freely {labels : List Label} {c : Config} (followed : run (fun _ _ => true) labels = some c) :
    (system ext settings).Reaches everything initial c := (reached followed).mono fun _ _ _ => trivial

theorem path_freely {labels : List Label} {c : Config} (followed : run (fun _ _ => true) labels = some c) :
    (system ext settings).Path everything initial labels.reverse c := by
  have path : (system ext settings).Path everything initial (labels.reverse ++ []) c :=
    (system ext settings).follow_path (fun _ _ _ => trivial) .nil followed
  rwa [List.append_nil] at path

/-- A computed test of where a schedule leads. -/
theorem arrives {check : Config → Label → Bool} {labels : List Label} {test : Config → Bool}
    (passed : (run check labels).any test = true) :
    ∃ c, (system ext settings).Reaches (fun c label => check c label = true) initial c ∧ test c = true := by
  obtain ⟨c, followed, holds⟩ := (Option.any_eq_true _ _).mp passed
  exact ⟨c, reached followed, holds⟩

theorem arrives_freely {labels : List Label} {test : Config → Bool}
    (passed : (run (fun _ _ => true) labels).any test = true) :
    ∃ history c, (system ext settings).Path everything initial history c ∧ test c = true := by
  obtain ⟨c, reached, holds⟩ := arrives passed
  obtain ⟨history, run⟩ := (reached.mono fun _ _ _ => trivial).path
  exact ⟨history, c, run, holds⟩

theorem arrives_twice {first second : List Label} {test : Config → Config → Bool}
    (passed : ((run (fun _ _ => true) first).any fun c =>
      ((system ext settings).follow (fun _ _ => true) c second).any (test c)) = true) :
    ∃ c later, (system ext settings).Reaches everything initial c ∧
      (system ext settings).Reaches everything c later ∧ test c later = true := by
  obtain ⟨c, followed, passed⟩ := (Option.any_eq_true _ _).mp passed
  obtain ⟨later, continued, holds⟩ := (Option.any_eq_true _ _).mp passed
  exact ⟨c, later, reached_freely followed,
    (system ext settings).follow_reaches (fun _ _ _ => trivial) continued, holds⟩

def finalized : Point → Option Execution
  | .finalizing x => some x
  | _ => none

def looped : Point → Option Execution
  | .scheduling x => some x
  | _ => none

def preparing : Point → Option QueuedRun
  | .executeRun queued => some queued
  | _ => none

def atQueue : Point → Bool
  | .schedulerTick => true
  | _ => false

theorem finalized_eq {point : Point} {x : Execution} (found : finalized point = some x) : point = .finalizing x := by
  cases point <;> cases found
  rfl

theorem looped_eq {point : Point} {x : Execution} (found : looped point = some x) : point = .scheduling x := by
  cases point <;> cases found
  rfl

theorem preparing_eq {point : Point} {queued : QueuedRun} (found : preparing point = some queued) :
    point = .executeRun queued := by
  cases point <;> cases found
  rfl

theorem atQueue_eq {point : Point} (holds : atQueue point = true) : point = .schedulerTick := by
  cases point <;> cases holds
  rfl

/-! ## Pieces of schedules -/

/-- Operations of one task that succeed, with the first answer of each query. -/
def turns (slot : Slot) (count : Nat) : List Label := List.replicate count (.exec slot (.answer 0))

/-- A request from its arrival through so many operations. -/
def serve (n : Nat) (request : Request) (count : Nat) : List Label :=
  .receive n request :: turns (.request n) count

/-- A first start, with one definition registered and one run of it created. -/
def started (path jobId : String) : List Label :=
  [.boot "localhost"] ++ serve 0 (.registerJob path none) 4 ++ serve 1 (.startRun jobId {}) 4

def block (count : Nat) : List Label := turns .scheduler count ++ [.resume .scheduler]

/-- A secret is created with a value before the run is prepared. -/
def withSecret (path jobId value : String) (count : Nat) : List Label :=
  started path jobId ++ [.receive 2 (.createSecret "DEPLOY_KEY" value), .exec (.request 2) (.bytes (zeros 12))] ++
    turns (.request 2) 2 ++ block 1 ++ turns .scheduler count

/-- A local task from its pick to its final status. -/
def workLocally (n : Nat) (result : ChildResult) : List Label :=
  turns .localWorker 3 ++ [.spawn n] ++ turns (.localTask n) 1 ++ [.exec (.localTask n) (.child result)] ++
    turns (.localTask n) 2

/-- The first pass over the fork: both roots are queued and the scheduler waits. -/
def forkQueued : List Label :=
  started "fork.yaml" "fork" ++ block 1 ++ block 7 ++ block 1 ++ block 3 ++ block 3 ++ block 0 ++ block 0

def exited (code : Int) : ChildResult := ⟨.exited (some code), "", ""⟩

def registered (n : Nat) : List Label :=
  [.receive n (.registerAgent "runner" "localhost" (some ["test"])),
    .exec (.request n) (.bytes (List.replicate 8 0)), .exec (.request n) (.bytes (List.replicate 32 0)),
    .exec (.request n) (.answer 0)]

def agentId : String := "agent-" ++ hexEncode (List.replicate 8 0)

def headers : Headers := ⟨some ("Bearer " ++ token)⟩

def remoteQueued : List Label :=
  started "remote.yaml" "remote" ++ registered 2 ++ block 1 ++ block 5 ++ block 1 ++ block 4 ++ block 0

def poll (n : Nat) : List Label := serve n (.pollTask headers) 5

def report (n : Nat) (status : String) : List Label :=
  serve n (.reportResult headers ⟨1, status, none, none, none⟩) 4

/-! ## A node with an output -/

def collectYaml : String :=
"version: 1
id: collect
name: Collect
defaults:
  working_dir: /tmp
nodes:
  - id: hello
    program: hostname
    outputs:
      - path: out.txt
        required: false
"

def collect : JobDefinition where
  version := 1
  id := "collect"
  name := "Collect"
  defaults := some { workingDir := some "/tmp" }
  nodes := [{ id := "hello", program := "hostname", outputs := some [⟨"out.txt", some false⟩] }]

def collecting : External where
  __ := ext
  parseYaml text := if text = collectYaml then .ok collect else ext.parseYaml text
  sha256Hex text :=
    if text = collectYaml then "6b2ef3a282f0bc587e137c5e234479e22611743feb77c5fb67196e84f371c235" else sha256Hex text

def collectTask : Task where
  nodeRunId := 1
  jobRunId := 1
  nodeId := "hello"
  nodeName := some "hello"
  program := "hostname"
  argsJson := "[]"
  workingDir := "/tmp"
  envJson := none
  timeoutSec := 1800
  definitionPath := "collect.yaml"
  jobId := "collect"

def collectDb : Db where
  __ := Db.empty
  jobRuns := Serial.empty.insert (NewRun.row ⟨1, "collect", "Collect", "manual", none, "collect.yaml",
    collecting.sha256Hex collectYaml, "/tmp", none, none, "run created", none⟩ 1000)
  agents := Table.empty.append agentId (NewAgent.row ⟨agentId, "runner", "localhost", "[\"test\"]",
    collecting.sha256Hex token⟩ 1000) nofun
  nodeRuns := (((Serial.empty.insert (NewNodeRun.row ⟨1, "hello", "hello", "hostname", "[]", "/tmp", none, 1800,
    none⟩ 1000)).updateAt 1 (NodeChange.assign agentId |>.apply 1000)).updateAt 1 (NodeChange.start.apply 1000))

def collectState : State where
  db := collectDb
  files path := if path = "collect.yaml" then some collectYaml else files path
  stored _ := none
  clock := 1000000

/-! ## Encodings that are read back -/

def writeTarget (target : NodeTarget) : List Char :=
  "\"agent\":".toList ++ (Json.nullable target.agent ++ (",\"labels\":[".toList ++
    (Json.items Json.quote ']' target.labels ++ ['\x7d'])))

/-- The library functions with the encodings of `serde_json`. -/
def json : External where
  __ := ext
  encodeStrings := Json.encodeArray
  decodeStrings := Json.decodeArray
  encodeMap map := Json.encodeObject (map.entries.map fun entry => (entry.1, entry.2))
  decodeMap text := (Json.decodeObject text).map fun entries =>
    entries.foldl (fun map entry => map.insert entry.1 entry.2) ∅
  encodeTarget := Json.wrap '\x7b' writeTarget

theorem json_strings (texts : List String) : json.decodeStrings (json.encodeStrings texts) = some texts :=
  Json.decodeArray_encodeArray texts

theorem json_target : Function.Injective json.encodeTarget := by
  rintro ⟨agent, labels⟩ ⟨agent', labels'⟩ same
  have texts := (List.cons.inj (String.ofList_injective same)).2
  obtain ⟨rfl, rest⟩ := Json.readNullable_nullable.cancel (List.append_cancel_left texts)
  obtain ⟨rfl, -⟩ := Json.array_inverts.cancel (List.append_cancel_left rest)
  rfl

def complaint (_ : String) : String := "expected value at line 1 column 1"

end PostJen.Server.Sample
