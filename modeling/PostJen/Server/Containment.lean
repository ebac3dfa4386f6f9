import PostJen.Foundations.Paths
import PostJen.Server.Http
import PostJen.Server.Sample
import Std.Data.String.ToNat

/-! Where stored artifacts lie.

The server keeps a node's files under the directories of its run and of the
node. Both code paths that store a file join the artifact's own path to that
directory, which confines a path exactly when it stays below its start.
-/

set_option autoImplicit false

open PostJen.Foundations PostJen.Core

namespace PostJen.Server

/-! ## Path texts -/

/-- The components that `Path::components` yields: empty ones and `.` are skipped. -/
def components (path : String) : List (Component (List Char)) :=
  (path.toList.splitOn '/').filterMap fun part =>
    if part = [] ∨ part = ['.'] then none
    else if part = ['.', '.'] then some .parent
    else some (.entry part)

/-- The place that a path names after lexical normalisation. -/
def location (path : String) : Location (List Char) :=
  (if isAbsolute path then Location.root else .here).walk (components path)

theorem components_append (front rest : List Char) :
    components (String.ofList (front ++ '/' :: rest)) =
      components (String.ofList front) ++ components (String.ofList rest) := by
  simp only [components, String.toList_ofList, List.splitOn_append_cons_self, List.filterMap_append]

theorem joinPath_absolute {base path : String} (absolute : isAbsolute path = true) : joinPath base path = path := by
  rw [joinPath, absolute]
  rfl

theorem components_joinPath {base path : String} (relative : isAbsolute path = false) :
    components (joinPath base path) = components base ++ components path := by
  unfold joinPath
  rw [relative, Bool.false_or]
  split
  · rename_i empty
    rw [of_decide_eq_true empty]
    rfl
  · split
    · rename_i slash
      obtain ⟨front, ends⟩ := List.getLast?_eq_some_iff.mp slash
      have base_eq : base = String.ofList (front ++ '/' :: []) := by
        rw [← ends, String.ofList_toList]
      have join_eq : base ++ path = String.ofList (front ++ '/' :: path.toList) := by
        rw [← String.toList_inj, String.toList_append, ends, String.toList_ofList, List.append_assoc]
        rfl
      rw [join_eq, components_append, String.ofList_toList, base_eq, components_append]
      exact congrArg (· ++ _) (List.append_nil _).symm
    · have join_eq : base ++ "/" ++ path = String.ofList (base.toList ++ '/' :: path.toList) := by
        rw [← String.toList_inj]
        simp
      rw [join_eq, components_append, String.ofList_toList, String.ofList_toList]

theorem isAbsolute_joinPath {base path : String} (relative : isAbsolute path = false) :
    isAbsolute (joinPath base path) = isAbsolute base := by
  unfold joinPath
  rw [relative, Bool.false_or]
  split
  · rename_i empty
    rw [of_decide_eq_true empty, relative]
    rfl
  · rename_i nonempty
    have starts : base.toList ≠ [] := by
      intro none
      exact nonempty (decide_eq_true (String.toList_eq_nil_iff.mp none))
    split <;> simp only [isAbsolute, String.toList_append, List.append_assoc, List.head?_append_of_ne_nil _ starts]

theorem location_joinPath {base path : String} (relative : isAbsolute path = false) :
    location (joinPath base path) = (location base).walk (components path) := by
  rw [location, components_joinPath relative, isAbsolute_joinPath relative, Location.walk_append, location]

theorem components_toString (id : Nat) : components (toString id) = [.entry (Nat.toDigits 10 id)] := by
  have digits : ∀ c ∈ Nat.toDigits 10 id, c.isDigit = true := fun c member =>
    Nat.isDigit_of_mem_toDigits (by decide) (by decide) member
  have unseparated : '/' ∉ Nat.toDigits 10 id := fun member => by cases digits _ member
  have undotted : '.' ∉ Nat.toDigits 10 id := fun member => by cases digits _ member
  have single : Nat.toDigits 10 id ≠ ['.'] := fun same => undotted (by rw [same]; exact List.mem_cons_self)
  have double : Nat.toDigits 10 id ≠ ['.', '.'] := fun same => undotted (by rw [same]; exact List.mem_cons_self)
  rw [components, Nat.toString_eq_ofList_toDigits, String.toList_ofList, List.splitOn_eq_singleton unseparated]
  simp [Nat.toDigits_ne_nil, single, double]

theorem isAbsolute_toString (id : Nat) : isAbsolute (toString id) = false := by
  have digits : ∀ c ∈ Nat.toDigits 10 id, c.isDigit = true := fun c member =>
    Nat.isDigit_of_mem_toDigits (by decide) (by decide) member
  rw [isAbsolute, Nat.toString_eq_ofList_toDigits, String.toList_ofList]
  cases starts : Nat.toDigits 10 id with
  | nil => rfl
  | cons c rest =>
    refine decide_eq_false fun same => ?_
    have slash := digits c (by rw [starts]; exact List.mem_cons_self)
    cases same
    cases slash

/-! ## The directory of a node run -/

def artifactDir (settings : Settings) (runId nodeRunId : Nat) : Location (List Char) :=
  (location settings.artifactsDir).descend [Nat.toDigits 10 runId, Nat.toDigits 10 nodeRunId]

theorem location_nodeDir (settings : Settings) (runId nodeRunId : Nat) :
    location (joinPath (joinPath settings.artifactsDir (toString runId)) (toString nodeRunId)) =
      artifactDir settings runId nodeRunId := by
  rw [location_joinPath (isAbsolute_toString nodeRunId), location_joinPath (isAbsolute_toString runId),
    components_toString, components_toString, Location.walk_entry, Location.walk_entry, Location.descend_descend]
  rfl

theorem artifactDir_inj {settings : Settings} {runId nodeRunId runId' nodeRunId' : Nat} {place : Location (List Char)}
    (left : (artifactDir settings runId nodeRunId).Inside place)
    (right : (artifactDir settings runId' nodeRunId').Inside place) : runId = runId' ∧ nodeRunId = nodeRunId' := by
  have names := left.disjoint right rfl
  simp only [List.cons.injEq, and_true] at names
  have digits : ∀ {first second : Nat}, Nat.toDigits 10 first = Nat.toDigits 10 second → first = second := by
    intro first second same
    rw [← Nat.ofDigitChars_ten_toDigits (n := first), same, Nat.ofDigitChars_ten_toDigits]
  exact ⟨digits names.1, digits names.2⟩

/-- A relative path that never climbs above its start and ends below it. -/
def Confined (path : String) : Prop :=
  isAbsolute path = false ∧ (location path).up = 0 ∧ (location path).names ≠ []

instance (path : String) : Decidable (Confined path) := inferInstanceAs (Decidable (_ ∧ _ ∧ _))

example : Confined "dist/./app.tar" ∧ Confined "a/../b" ∧ ¬Confined "a/../../b" ∧ ¬Confined "/etc/passwd" ∧
    ¬Confined "." := by decide

theorem location_relative {path : String} (relative : isAbsolute path = false) :
    location path = Location.here.walk (components path) := by
  rw [location, relative]
  rfl

theorem location_dest {path : String} (relative : isAbsolute path = false) (settings : Settings)
    (runId nodeRunId : Nat) :
    location (artifactDest settings runId nodeRunId path) =
      (artifactDir settings runId nodeRunId).walk (components path) := by
  rw [artifactDest, location_joinPath relative, location_nodeDir]

theorem Confined.inside {path : String} (confined : Confined path) (settings : Settings) (runId nodeRunId : Nat) :
    (artifactDir settings runId nodeRunId).Inside (location (artifactDest settings runId nodeRunId path)) := by
  obtain ⟨relative, level, below⟩ := confined
  rw [location_relative relative] at level below
  rw [location_dest relative]
  exact Location.inside_walk _ level below

theorem Confined.passes {path : String} (confined : Confined path) (settings : Settings) (runId nodeRunId : Nat)
    {front rest : List (Component (List Char))} (split : components path = front ++ rest) :
    (artifactDir settings runId nodeRunId).walk front = artifactDir settings runId nodeRunId ∨
      (artifactDir settings runId nodeRunId).Inside ((artifactDir settings runId nodeRunId).walk front) := by
  obtain ⟨relative, level, -⟩ := confined
  rw [location_relative relative, split] at level
  have stays : (Location.here.walk front).up = 0 :=
    Nat.le_zero.mp (level ▸ Location.up_mono front rest)
  by_cases below : (Location.here.walk front).names = []
  · left
    rw [((artifactDir settings runId nodeRunId).walk_eq front).1, stays, below, Location.descend_nil]
    rfl
  · exact .inr (Location.inside_walk _ stays below)

theorem confined_of_inside {settings : Settings} {path : String} {runId first second : Nat} (differ : first ≠ second)
    (left : (artifactDir settings runId first).Inside (location (artifactDest settings runId first path)))
    (right : (artifactDir settings runId second).Inside (location (artifactDest settings runId second path))) :
    Confined path := by
  have apart : location (artifactDest settings runId first path) ≠
      location (artifactDest settings runId second path) := by
    intro same
    rw [← same] at right
    exact differ (artifactDir_inj left right).2
  cases absolute : isAbsolute path with
  | true =>
    rw [artifactDest, artifactDest, joinPath_absolute absolute, joinPath_absolute absolute] at apart
    exact absurd rfl apart
  | false =>
    rw [location_dest absolute] at left apart
    rw [location_dest absolute] at apart
    have level : (Location.here.walk (components path)).up = 0 := by
      by_contra climbs
      have split : ∀ id, artifactDir settings runId id =
          ((location settings.artifactsDir).descend [Nat.toDigits 10 runId]).descend [Nat.toDigits 10 id] :=
        fun id => by rw [Location.descend_descend]; rfl
      rw [split, split] at apart
      exact apart (Location.walk_forgets _ _ _ climbs)
    refine ⟨absolute, by rw [location_relative absolute, level], ?_⟩
    rw [location_relative absolute]
    intro back
    rw [((artifactDir settings runId first).walk_eq _).1, level, back, Location.descend_nil] at left
    exact Location.not_inside_self _ left

/-! ## The files that the server writes -/

def Op.stores : Op → Option String
  | .copyFile _ dest | .writeFile dest _ => some dest
  | _ => none

def belongs (nodeRunId runId : Nat) : (op : Op) → op.Reply → Prop
  | .select (.nodeJobRun id), reply => id = nodeRunId → ∀ found, reply = .ok (some found) → found = runId
  | _, _ => True

/-- An upload for a node run under a path can write a file. -/
def Uploads (ext : External) (settings : Settings) (runId nodeRunId : Nat) (path dest : String) : Prop :=
  ∃ headers parts upload, readParts parts {} = .ok upload ∧ upload.nodeRunId = some nodeRunId ∧
    upload.path = some path ∧
    (uploadArtifact ext settings headers parts).Reaches (belongs nodeRunId runId) fun op : Op => op.stores = some dest

/-- The copy step of a local task can write a file for a declared output. -/
def Copies (settings : Settings) (runId nodeRunId : Nat) (path dest : String) : Prop :=
  ∃ task artifact, task.jobRunId = runId ∧ task.nodeRunId = nodeRunId ∧ artifact.path = path ∧
    (storeLocally settings task artifact).Reaches (fun _ _ => True) fun op : Op => op.stores = some dest

theorem copies_iff {settings : Settings} {runId nodeRunId : Nat} {path dest : String} :
    Copies settings runId nodeRunId path dest ↔ dest = artifactDest settings runId nodeRunId path := by
  constructor
  · rintro ⟨task, artifact, rfl, rfl, rfl, reached⟩
    unfold storeLocally at reached
    split at reached
    · rcases reached with here | ⟨_, -, never⟩
      · exact (Option.some.inj here).symm
      · exact never.elim
    · exact reached.elim
  · rintro rfl
    exact ⟨⟨nodeRunId, runId, "", none, "", "", "", none, 0, "", ""⟩, ⟨path, "", true, true, none⟩, rfl, rfl, rfl,
      .inl rfl⟩

section
variable {E : Type} [FromSql E] {possible : (op : Op) → op.Reply → Prop} {kind : Op → Prop}

theorem reaches_fetch {query : Select} : (fetch query : Proc Sig E query.Row).Reaches possible kind ↔
    kind (.select query) := by
  constructor
  · rintro (here | ⟨reply, -, never⟩)
    · exact here
    · cases reply <;> exact never.elim
  · exact .inl

theorem reaches_run {write : Write} : (run write : Proc Sig E Unit).Reaches possible kind ↔ kind (.write write) := by
  rw [run, Proc.reaches_bind]
  constructor
  · rintro ((here | ⟨reply, -, never⟩) | ⟨_, -, never⟩)
    · exact here
    · cases reply <;> exact never.elim
    · exact never.elim
  · exact fun here => .inl (.inl here)

theorem reaches_lift {A : Type} {value : Except ApiError A} : ¬(lift value).Reaches possible kind := by
  cases value <;> exact id

theorem ends_lift {A : Type} {value : Except ApiError A} {result : A} (ended : (lift value).Ends possible result) :
    value = .ok result := by
  cases value with
  | error why => exact ended.elim
  | ok value =>
    cases ended
    rfl

theorem reaches_authenticateAgent {ext : External} {headers : Headers} (selects : ∀ query, ¬kind (.select query)) :
    ¬(authenticateAgent ext headers).Reaches possible kind := by
  unfold authenticateAgent
  split
  · exact id
  · rw [Proc.reaches_bind, reaches_fetch]
    rintro (here | ⟨row, -, never⟩)
    · exact selects _ here
    · cases row <;> exact never.elim

theorem reaches_nodeJobRun {nodeRunId : Nat} {missing : ApiError} (selects : ∀ query, ¬kind (.select query)) :
    ¬(nodeJobRun nodeRunId missing).Reaches possible kind := by
  rw [nodeJobRun, Proc.reaches_bind, reaches_fetch]
  rintro (here | ⟨row, -, never⟩)
  · exact selects _ here
  · cases row <;> exact never.elim

end

theorem ends_nodeJobRun {nodeRunId runId found : Nat} {missing : ApiError}
    (ended : (nodeJobRun nodeRunId missing).Ends (belongs nodeRunId runId) found) : found = runId := by
  obtain ⟨reply, can, ended⟩ := ended
  cases reply with
  | error why => exact ended.elim
  | ok row =>
    cases row with
    | none => exact ended.elim
    | some other =>
      cases ended
      exact can rfl _ rfl

theorem requirePart_ok {A : Type} {name : String} {part : Option A} {value : A}
    (present : requirePart name part = .ok value) : part = some value := by
  cases part <;> cases present
  rfl

theorem uploads_dest {ext : External} {settings : Settings} {runId nodeRunId : Nat} {path dest : String}
    (uploads : Uploads ext settings runId nodeRunId path dest) :
    dest = artifactDest settings runId nodeRunId path := by
  obtain ⟨headers, parts, upload, read, named, placed, reached⟩ := uploads
  have selects : ∀ query, ¬(Op.select query).stores = some dest := fun _ same => by cases same
  rw [uploadArtifact, Proc.reaches_bind] at reached
  rcases reached with here | ⟨_, -, reached⟩
  · exact absurd here (reaches_authenticateAgent selects)
  rw [Proc.reaches_bind] at reached
  rcases reached with here | ⟨found, ended, reached⟩
  · exact absurd here reaches_lift
  cases read.symm.trans (ends_lift ended)
  rw [Proc.reaches_bind] at reached
  rcases reached with here | ⟨id, ended, reached⟩
  · exact absurd here reaches_lift
  cases named.symm.trans (requirePart_ok (ends_lift ended))
  rw [Proc.reaches_bind] at reached
  rcases reached with here | ⟨text, ended, reached⟩
  · exact absurd here reaches_lift
  cases placed.symm.trans (requirePart_ok (ends_lift ended))
  rw [Proc.reaches_bind] at reached
  rcases reached with here | ⟨file, -, reached⟩
  · exact absurd here reaches_lift
  rw [Proc.reaches_bind] at reached
  rcases reached with here | ⟨run, ended, reached⟩
  · exact absurd here (reaches_nodeJobRun selects)
  rw [ends_nodeJobRun ended] at reached
  rcases reached with here | ⟨written, -, reached⟩
  · exact (Option.some.inj here).symm
  · cases written with
    | error why => exact reached.elim
    | ok _ =>
      rcases (Proc.reaches_bind (Server.run _) _).mp reached with here | ⟨_, -, never⟩
      · cases reaches_run.mp here
      · exact never.elim

/-- Every path can be uploaded for a node whose id the client can spell. -/
theorem uploads_artifactDest (ext : External) (settings : Settings) {runId nodeRunId : Nat} {text : String}
    (spelled : parseRowId text = .ok nodeRunId) (path : String) :
    Uploads ext settings runId nodeRunId path (artifactDest settings runId nodeRunId path) := by
  have read : readParts [⟨"node_run_id", text⟩, ⟨"path", path⟩, ⟨"file", ""⟩] {} =
      .ok ⟨some nodeRunId, some path, some ""⟩ := by
    simp [readParts, spelled]
  refine ⟨⟨some "Bearer token"⟩, [⟨"node_run_id", text⟩, ⟨"path", path⟩, ⟨"file", ""⟩],
    ⟨some nodeRunId, some path, some ""⟩, read, rfl, rfl, ?_⟩
  have held : bearer ⟨some "Bearer token"⟩ = some "token" := by decide
  rw [uploadArtifact, read, authenticateAgent, held]
  exact .inr ⟨.ok (some "agent"), trivial, .inr ⟨.ok (some runId), fun _ _ same => by cases same; rfl, .inl rfl⟩⟩

/-! ## Containment -/

def Contains (settings : Settings) (stores : Nat → Nat → String → Prop) : Prop :=
  ∀ runId nodeRunId dest, stores runId nodeRunId dest → (artifactDir settings runId nodeRunId).Inside (location dest)

/-- Both code paths confine a path exactly when it is confined by itself; files
of confined paths then never collide, and nothing outside the store is touched. -/
theorem artifact_containment (ext : External) (settings : Settings) :
    (∀ path, (Contains settings fun runId nodeRunId => Uploads ext settings runId nodeRunId path) ↔ Confined path) ∧
    (∀ path, (Contains settings fun runId nodeRunId => Copies settings runId nodeRunId path) ↔ Confined path) ∧
    ∀ path, Confined path → ∀ runId nodeRunId dest,
      Uploads ext settings runId nodeRunId path dest ∨ Copies settings runId nodeRunId path dest →
      (location settings.artifactsDir).Inside (location dest) ∧
      (∀ front rest, components path = front ++ rest →
        (location settings.artifactsDir).Inside ((artifactDir settings runId nodeRunId).walk front)) ∧
      ∀ other, Confined other → ∀ runId' nodeRunId' dest',
        Uploads ext settings runId' nodeRunId' other dest' ∨ Copies settings runId' nodeRunId' other dest' →
        (runId, nodeRunId) ≠ (runId', nodeRunId') → location dest ≠ location dest' := by
  have stored : ∀ {path runId nodeRunId dest},
      Uploads ext settings runId nodeRunId path dest ∨ Copies settings runId nodeRunId path dest →
      dest = artifactDest settings runId nodeRunId path := by
    rintro path runId nodeRunId dest (uploads | copies)
    · exact uploads_dest uploads
    · exact copies_iff.mp copies
  have inside : ∀ {path runId nodeRunId dest}, Confined path →
      Uploads ext settings runId nodeRunId path dest ∨ Copies settings runId nodeRunId path dest →
      (artifactDir settings runId nodeRunId).Inside (location dest) := by
    intro path runId nodeRunId dest confined stores
    rw [stored stores]
    exact confined.inside settings runId nodeRunId
  refine ⟨fun path => ⟨fun contains => ?_, fun confined runId nodeRunId dest uploads => inside confined (.inl uploads)⟩,
    fun path => ⟨fun contains => ?_, fun confined runId nodeRunId dest copies => inside confined (.inr copies)⟩,
    fun path confined runId nodeRunId dest stores => ⟨(inside confined stores).above, ?_, ?_⟩⟩
  -- two nodes of one run tell the paths apart that climb: they leave one of the directories
  · have one : parseRowId "1" = .ok 1 := by decide
    have two : parseRowId "2" = .ok 2 := by decide
    exact confined_of_inside (Nat.succ_ne_self 1).symm (contains 1 1 _ (uploads_artifactDest ext settings one path))
      (contains 1 2 _ (uploads_artifactDest ext settings two path))
  · exact confined_of_inside (Nat.succ_ne_self 1).symm (contains 1 1 _ (copies_iff.mpr rfl))
      (contains 1 2 _ (copies_iff.mpr rfl))
  · intro front rest split
    rcases confined.passes settings runId nodeRunId split with start | below
    · rw [start]
      exact ⟨_, List.cons_ne_nil _ _, rfl⟩
    · exact below.above
  · intro other confined' runId' nodeRunId' dest' stores' differ same
    -- a file below the directories of two nodes makes them one directory
    have left := inside confined stores
    rw [same] at left
    obtain ⟨rfl, rfl⟩ := artifactDir_inj left (inside confined' stores')
    exact differ rfl

/-- An absolute path is written where it points. -/
theorem artifact_containment_absolute : ¬∀ path runId nodeRunId dest,
    Uploads Sample.ext Sample.settings runId nodeRunId path dest →
    (artifactDir Sample.settings runId nodeRunId).Inside (location dest) := by
  intro claim
  have one : parseRowId "1" = .ok 1 := by decide
  obtain ⟨names, -, same⟩ := claim "/etc/passwd" 1 1 _ (uploads_artifactDest Sample.ext Sample.settings one _)
  have absolute : (location (artifactDest Sample.settings 1 1 "/etc/passwd")).absolute =
      (artifactDir Sample.settings 1 1).absolute := by
    rw [same]
    rfl
  exact absurd absolute (by decide)

end PostJen.Server
