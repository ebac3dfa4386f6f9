import PostJen.Core.Types

/-! Job definitions: the parsed form, its validation and its resolution.

Parsing YAML text is left to the caller; everything after `serde_yaml` returns
is computed here. Errors are the source's messages.
-/

set_option autoImplicit false

namespace PostJen.Core

structure ParamDefinition where
  name : String
  default : Option String
  required : Bool
  deriving DecidableEq

structure Triggers where
  cron : Option String
  webhook : Bool
  deriving DecidableEq

structure NodeTarget where
  agent : Option String
  labels : List String
  deriving DecidableEq

structure JobDefaults where
  workingDir : Option String := none
  timeoutSec : Option Nat := none
  retry : Option Nat := none
  env : Option (StringMap String) := none
  target : Option NodeTarget := none

structure NodeOutput where
  path : String
  required : Option Bool
  deriving DecidableEq

structure NodeDefinition where
  id : String
  name : Option String := none
  program : String
  args : Option (List String) := none
  workingDir : Option String := none
  dependsOn : Option (List String) := none
  env : Option (StringMap String) := none
  timeoutSec : Option Nat := none
  retry : Option Nat := none
  outputs : Option (List NodeOutput) := none
  target : Option NodeTarget := none
  secrets : Option (List String) := none

structure JobDefinition where
  version : Nat
  id : String
  name : String
  description : Option String := none
  defaults : Option JobDefaults := none
  params : Option (List ParamDefinition) := none
  triggers : Option Triggers := none
  nodes : List NodeDefinition

structure ResolvedNodeOutput where
  path : String
  required : Bool
  deriving DecidableEq

structure ResolvedNodeDefinition where
  id : String
  name : String
  program : String
  args : List String
  workingDir : String
  dependsOn : List String
  env : StringMap String
  timeoutSec : Nat
  retry : Nat
  outputs : List ResolvedNodeOutput
  target : Option NodeTarget
  secrets : List String

structure ResolvedJobDefinition where
  id : String
  name : String
  description : Option String
  workingDir : String
  params : List ParamDefinition
  triggers : Option Triggers
  nodes : List ResolvedNodeDefinition

def NodeDefinition.needs (node : NodeDefinition) : List String :=
  node.dependsOn.getD []

def isValidId (value : String) : Bool :=
  match value.toList with
  | [] => false
  | c :: chars =>
      c.isLower && chars.all fun c => c.isLower || c.isDigit || c = '-' || c = '_'

/-! ## Topological order -/

def initialIndegree (nodes : List NodeDefinition) : StringMap Nat :=
  nodes.foldl (fun indegree node => indegree.insert node.id node.needs.length) ∅

/-- `outgoing.entry(key).or_default()`. -/
def entryOrDefault (outgoing : StringMap (List String)) (key : String) : StringMap (List String) :=
  match outgoing.lookup key with
  | some _ => outgoing
  | none => outgoing.insert key []

/-- `outgoing.entry(dep).or_default().push(id)`. -/
def pushEdge (id : String) (outgoing : StringMap (List String)) (dep : String) :
    StringMap (List String) :=
  outgoing.insert dep ((outgoing.lookup dep).getD [] ++ [id])

def outgoingEdges (nodes : List NodeDefinition) : StringMap (List String) :=
  nodes.foldl (fun outgoing node => node.needs.foldl (pushEdge node.id) outgoing)
    (nodes.foldl (fun outgoing node => entryOrDefault outgoing node.id) ∅)

/-- One turn of the loop over a popped node's successors. Decrementing zero
overflows `usize`. -/
def release (state : StringMap Nat × List String) (next : String) :
    Except String (StringMap Nat × List String) :=
  match state.1.lookup next with
  | none => .ok state
  | some 0 => .error "attempt to subtract with overflow"
  | some (value + 1) =>
      .ok (state.1.insert next value, if value = 0 then state.2 ++ [next] else state.2)

/-- The `while let` loop, as many turns as `fuel`. -/
def drain (outgoing : StringMap (List String)) :
    Nat → List String → StringMap Nat → List String → Except String (List String)
  | 0, _, _, order => .ok order
  | _, [], _, order => .ok order
  | fuel + 1, nodeId :: queue, indegree, order => do
      let (indegree, queue) ← ((outgoing.lookup nodeId).getD []).foldlM release (indegree, queue)
      drain outgoing fuel queue indegree (order ++ [nodeId])

/-- Every turn removes one entry from the queue, and an entry is queued at the
start or by an edge, which bounds the turns. -/
def topologicalOrder (nodes : List NodeDefinition) : Except String (List String) := do
  let indegree := initialIndegree nodes
  let outgoing := outgoingEdges nodes
  let queue := (nodes.filter fun node => (indegree.lookup node.id).getD 0 = 0).map (·.id)
  let turns := nodes.length + (nodes.map fun node => node.needs.length).sum
  let order ← drain outgoing turns queue indegree []
  if order.length ≠ nodes.length then
    throw "node dependency graph contains a cycle"
  return order

/-! ## Validation -/

def validateNode (node : NodeDefinition) : Except String Unit := do
  if !isValidId node.id then
    throw ("invalid node id: " ++ node.id)
  if trim node.program = "" then
    throw ("node '" ++ node.id ++ "' has empty program")
  if node.timeoutSec.getD 1 = 0 then
    throw ("node '" ++ node.id ++ "' must have timeout_sec >= 1")
  if (node.outputs.getD []).any fun output => trim output.path = "" then
    throw ("node '" ++ node.id ++ "' has empty output path")

def validateNodes : List String → List NodeDefinition → Except String (List String)
  | seen, [] => .ok seen
  | seen, node :: rest => do
      validateNode node
      if node.id ∈ seen then
        throw ("duplicate node id: " ++ node.id)
      validateNodes (node.id :: seen) rest

def validateDependencies (seen : List String) (nodes : List NodeDefinition) : Except String Unit :=
  nodes.forM fun node => node.needs.forM fun dep =>
    if dep ∈ seen then .ok ()
    else .error ("node '" ++ node.id ++ "' depends on unknown node '" ++ dep ++ "'")

namespace JobDefinition

def validate (definition : JobDefinition) : Except String Unit := do
  if definition.version ≠ 1 then
    throw ("unsupported definition version: " ++ toString definition.version)
  if !isValidId definition.id then
    throw ("invalid job id: " ++ definition.id)
  if trim definition.name = "" then
    throw "job name must not be empty"
  if definition.nodes = [] then
    throw "job must have at least one node"
  let seen ← validateNodes [] definition.nodes
  validateDependencies seen definition.nodes
  let _ ← topologicalOrder definition.nodes

/-! ## Resolution -/

/-- `env.extend(node_env)`: later entries win. -/
def extendEnv (env : StringMap String) (more : StringMap String) : StringMap String :=
  more.entries.foldl (fun env entry => env.insert entry.1 entry.2) env

def resolveNode (defaults : JobDefaults) (node : NodeDefinition) :
    Except String ResolvedNodeDefinition := do
  let some workingDir := node.workingDir.or defaults.workingDir
    | throw ("node '" ++ node.id ++ "' is missing working_dir")
  return {
    id := node.id
    name := node.name.getD node.id
    program := trim node.program
    args := node.args.getD []
    workingDir
    dependsOn := node.needs
    env := match node.env with
      | some nodeEnv => extendEnv (defaults.env.getD ∅) nodeEnv
      | none => defaults.env.getD ∅
    timeoutSec := node.timeoutSec.getD (defaults.timeoutSec.getD 1800)
    retry := node.retry.getD (defaults.retry.getD 0)
    outputs := (node.outputs.getD []).map fun output => ⟨output.path, output.required.getD true⟩
    target := node.target.or defaults.target
    secrets := node.secrets.getD [] }

def nodesById (nodes : List NodeDefinition) : StringMap NodeDefinition :=
  nodes.foldl (fun byId node => byId.insert node.id node) ∅

def resolveNodes (defaults : JobDefaults) (byId : StringMap NodeDefinition) :
    List String → Except String (List ResolvedNodeDefinition)
  | [] => .ok []
  | nodeId :: rest => do
      let some node := byId.lookup nodeId
        | throw "internal error: node missing after validation"
      let resolved ← resolveNode defaults node
      return resolved :: (← resolveNodes defaults byId rest)

def resolve (definition : JobDefinition) : Except String ResolvedJobDefinition := do
  definition.validate
  let defaults := definition.defaults.getD {}
  let order ← topologicalOrder definition.nodes
  let nodes ← resolveNodes defaults (nodesById definition.nodes) order
  return {
    id := definition.id
    name := definition.name
    description := definition.description
    workingDir := defaults.workingDir.getD ((nodes.head?.map (·.workingDir)).getD ".")
    params := definition.params.getD []
    triggers := definition.triggers
    nodes }

end JobDefinition

end PostJen.Core
