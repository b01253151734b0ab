import BackupPlan.Proofs.BackendFields
import BackupPlan.Proofs.DestinationAgreement
import BackupPlan.Proofs.ScriptAdditions

/-!
# The log tells what became of a job

Records are told where something happens, in four places, and some of them under conditions
that are wider than what they say: the record on a missing credential would be told as well
where both are missing.  Such a job is rejected before it comes to that, so the records of a
compilation can be told from its end, and every one of them is true.

* `JobEvent` — what can happen to a job, and the record on it;
* `resolutionRecords_eq` — what is told before the checks;
* `ResolvedJob.log_compileTo` — what is told of a script that is written;
* `log_tells_what_became_of_a_job` — the whole log, by the end of the compilation.
-/

namespace BackupPlan

open Shell

/-! ### Events -/

/-- What can happen to a job while it is compiled. -/
inductive JobEvent where
  /-- A key file is ignored, because there is no remote URL. -/
  | identityIgnored (path : UnixPath)
  /-- The script is to be removed. -/
  | removalOrdered
  /-- A destination is chosen. -/
  | destinationChosen (kind : DestinationKind) (url : String)
  /-- One of the two credentials of a bucket is missing. -/
  | credentialMissing
  /-- A script is written, with so many commands on its last line. -/
  | scriptWritten (path : UnixPath) (commands : Nat)

/-- What a record calls a kind of destination. -/
def JobEvent.kindName : DestinationKind → String
  | .objectStorage .cloudFiles => "CloudObjectStorage(CloudFiles)"
  | .s3Compatible => "S3Compatible"
  | .remoteHost => "RemoteHost"

/-- The record on an event, for the job with the given title. -/
def JobEvent.record (title : String) : JobEvent → Record
  | identityIgnored path => ignoredIdentityRecord title path
  | removalOrdered =>
    ⟨.debug, .compilation, "Job " ++ Text.quoted title ++ " is absent, emitting removal marker"⟩
  | destinationChosen kind url =>
    ⟨.debug, .destination,
      "Job " ++ Text.quoted title ++ " writes to " ++ kindName kind ++ " at " ++ url⟩
  | credentialMissing =>
    ⟨.warn, .command, "Job " ++ Text.quoted title ++
      " has only one of dest_id/dest_key, emitting the one that is set"⟩
  | scriptWritten path commands =>
    ⟨.info, .compilation, "Compiled job " ++ Text.quoted title ++ " into " ++ path.quoted ++
      " (" ++ toString commands ++ " command(s))"⟩

/-! ### Before the checks -/

/-- A key file is ignored exactly if there is one and no remote URL. -/
def JobSpec.identityEvents (job : JobSpec) : List JobEvent :=
  if nonEmpty job.target = none then job.sshIdentity.toList.map .identityIgnored else []

/-- What is logged before the checks is the record of an ignored identity, where there is one. -/
theorem resolutionRecords_eq (job : JobSpec) :
    job.resolutionRecords = job.identityEvents.map (JobEvent.record job.title) := by
  rw [JobSpec.resolutionRecords, JobSpec.ignoredIdentity, JobSpec.identityEvents]
  cases nonEmpty job.target with
  | some target => simp
  | none => cases job.sshIdentity <;> rfl

/-- What is logged before the checks is logged at the level `DEBUG`. -/
theorem level_of_mem_resolutionRecords {job : JobSpec} {record : Record}
    (h : record ∈ job.resolutionRecords) : record.level = .debug := by
  simp only [JobSpec.resolutionRecords, Option.mem_toList, Option.map_eq_some_iff] at h
  obtain ⟨path, -, rfl⟩ := h
  rfl

/-! ### A script that is written -/

namespace ResolvedJob

variable {job : ResolvedJob} {place : BackupPlace} {destination : Destination}

/-- The commands on the last line of the script of a job. -/
def commandCount (job : ResolvedJob) : Nat :=
  1 + job.preCommand.toList.length + job.removeOlderThan.toList.length

/-- What happens to a job that is written to a script for its place.  A credential is
missing if the place is a bucket and the job has exactly one of the two. -/
def writingEvents (job : ResolvedJob) (place : BackupPlace) (path : UnixPath) : List JobEvent :=
  [.destinationChosen place.kind place.url] ++
    (if place.kind ≠ .remoteHost ∧ job.destId.isSome ≠ job.destKey.isSome
      then [.credentialMissing] else []) ++
    [.scriptWritten path job.commandCount]

/-- The chain has as many commands as are counted from the fields of the job. -/
theorem length_commandChain (job : ResolvedJob) (destination : Destination) :
    (commandChain job destination).commands.length = job.commandCount := by
  rw [commandChain, commandCount]
  cases job.preCommand <;> cases job.removeOlderThan <;> rfl

/-- The record of the chosen destination tells the kind and the address of its place. -/
theorem record_eq (hdescribes : place.Describes destination) :
    destination.record job =
      (JobEvent.destinationChosen place.kind place.url).record job.title := by
  have hname : place.kind.shown = JobEvent.kindName place.kind := by
    cases place <;> rfl
  rw [Destination.record, hdescribes.kind_eq, hdescribes.url, hname]
  rfl

/-- A bucket is told to lack a credential where it lacks at least one.  It never lacks both,
for the rules on the whole job let no such job pass. -/
theorem credentialRecords_eq (hcause : job.structuralCause = none) (hplace : job.GoesTo place)
    (hdescribes : place.Describes destination) :
    credentialRecords job destination =
      (if place.kind ≠ .remoteHost ∧ job.destId.isSome ≠ job.destKey.isSome
        then [JobEvent.credentialMissing] else []).map (JobEvent.record job.title) := by
  have hkind := hdescribes.kind_eq
  by_cases hremote : place.kind = .remoteHost
  · have hnone : destination.kind.credentialVariables = none := by rw [hkind, hremote]; rfl
    simp [credentialRecords, hnone, hremote]
  · obtain ⟨names, hnames⟩ := destination.kind.exists_variables_of_ne_remoteHost (hkind ▸ hremote)
    have hlocal : job.target = none := by
      by_contra htarget
      exact hremote (hplace.kind_iff.1.mpr htarget)
    have hlogin : job.destId ≠ none ∨ job.destKey ≠ none := by
      obtain ⟨-, ⟨htarget, -, -⟩ | ⟨-, -, hlogin, -⟩⟩ := structuralCause_eq_none_iff.mp hcause
      · exact absurd hlocal htarget
      · exact hlogin
    have hmissing : (job.destId.isNone || job.destKey.isNone) = true ↔
        job.destId.isSome ≠ job.destKey.isSome := by
      cases hid : job.destId <;> cases hkey : job.destKey <;> simp_all
    simp only [credentialRecords, hnames, Option.isSome_some, Bool.true_and, hmissing, hremote,
      ne_eq, not_false_eq_true, true_and]
    split <;> rfl

/-- **What is told of a script that is written.** -/
theorem log_compileTo (hcause : job.structuralCause = none) (hplace : job.GoesTo place)
    (hdescribes : place.Describes destination) :
    (job.compileTo destination).log =
      (job.writingEvents place (job.compileTo destination).value.script.path).map
        (JobEvent.record job.title) := by
  rw [writingEvents, List.map_append, List.map_append, List.map_singleton, List.map_singleton,
    ← credentialRecords_eq hcause hplace hdescribes, ← record_eq hdescribes,
    ← length_commandChain job destination]
  rfl

/-! ### The whole log -/

/-- What is told of a settled job, by the end of its compilation. -/
inductive Tells (job : ResolvedJob) : Outcome → List JobEvent → Prop
  /-- A job fails, and nothing is told. -/
  | failed (failure : Failure) : Tells job (.error failure) []
  /-- A script is to be removed. -/
  | removed (done : CompiledJob) (habsent : job.ensure = .absent) :
      Tells job (.ok done) [.removalOrdered]
  /-- A script is written for a place; its last line is a chain of as many commands as are
  told of. -/
  | written {done : CompiledJob} {place : BackupPlace} {destination : Destination}
      (hpresent : job.ensure = .present) (hdestination : job.destination = .ok destination)
      (hplace : job.GoesTo place) (hdescribes : place.Describes destination)
      (hcontent : done.script.content =
        some (linesText (environment job destination) ++ (commandChain job destination).text ++
          "\n"))
      (hcount : (commandChain job destination).commands.length = job.commandCount) :
      Tells job (.ok done) (job.writingEvents place done.script.path)

/-- The end of a compilation determines what is told of it. -/
theorem Tells.unique {outcome : Outcome} {events other : List JobEvent}
    (h : job.Tells outcome events) (hother : job.Tells outcome other) : events = other := by
  cases h with
  | failed failure =>
      cases hother
      rfl
  | removed done habsent =>
      cases hother with
      | removed => rfl
      | written hpresent => exact absurd (habsent.symm.trans hpresent) (by decide)
  | written hpresent hdestination hplace =>
      cases hother with
      | removed done habsent => exact absurd (habsent.symm.trans hpresent) (by decide)
      | written _ _ hplace' => rw [hplace.unique hplace']

/-- The log of a resolved job is the records of events that fit its outcome. -/
theorem exists_events_of_compile (job : ResolvedJob) :
    ∃ events, job.compile.log = events.map (JobEvent.record job.title) ∧
      job.Tells job.compile.value events := by
  rcases job.compile_cases with ⟨failure, -, hc⟩ | ⟨-, habsent, hc⟩ | ⟨-, -, rejection, -, hc⟩ |
    ⟨hcheck, hpresent, destination, hdestination, hc⟩
  · rw [hc]
    exact ⟨[], rfl, .failed failure⟩
  · rw [hc]
    exact ⟨[.removalOrdered], rfl, .removed _ habsent⟩
  · rw [hc]
    exact ⟨[], rfl, .failed _⟩
  · have hcause := ((check_eq_ok_iff hpresent).mp hcheck).1
    obtain ⟨place, hplace, hdescribes⟩ := exists_place_of_destination hdestination
    rw [hc]
    exact ⟨_, log_compileTo hcause hplace hdescribes,
      .written hpresent hdestination hplace hdescribes (content_compileTo job destination)
        (length_commandChain job destination)⟩

end ResolvedJob

/-- **The log tells what became of a job**, and nothing else.  It begins with the record on
a key file that is ignored, which is there exactly if there is such a file and no remote
URL.  If the job fails, nothing follows, so that all records on it are of the lowest level.
If its script is to be removed, the record on the removal follows; and if it is written,
the records on the place that the backup goes to, on a credential that is missing, and on
the script, with its path and the number of the commands that stand on its last line.  What
is told is determined by how the compilation ends. -/
theorem log_tells_what_became_of_a_job (job : JobSpec) (defaults : Defaults) :
    (∃ events, (job.compile defaults).log =
        (job.identityEvents ++ events).map (JobEvent.record job.title) ∧
      (job.resolve defaults).Tells (job.compile defaults).value events ∧
      ∀ other, (job.resolve defaults).Tells (job.compile defaults).value other →
        other = events) ∧
    ∀ failure, (job.compile defaults).value = .error failure →
      ∀ record ∈ (job.compile defaults).log, record.level = .debug := by
  obtain ⟨events, hlog, htells⟩ := (job.resolve defaults).exists_events_of_compile
  have hwhole : (job.compile defaults).log =
      (job.identityEvents ++ events).map (JobEvent.record job.title) := by
    rw [JobSpec.compile, resolutionRecords_eq, hlog, List.map_append]
    rfl
  refine ⟨⟨events, hwhole, htells, fun other hother => hother.unique htells⟩,
    fun failure hfailure record hrecord => ?_⟩
  have hvalue : (job.resolve defaults).compile.value = .error failure := hfailure
  rw [hvalue] at htells
  cases htells
  rw [hwhole, List.append_nil, ← resolutionRecords_eq] at hrecord
  exact level_of_mem_resolutionRecords hrecord

/-- A job with a key file but no remote URL, one credential, a fragment and an age. -/
def talkativeJob : JobSpec where
  title := "db"
  directories := [.ofText "/srv"]
  bucket := .value "archive"
  destKey := .value ⟨"secret"⟩
  sshIdentity := some (.ofText "id_rsa")
  removeOlderThan := some "1Y"
  preCommand := some "sync"
  hostIdentifier := some "web"

/-- The same job with nothing to back up. -/
def emptyTalkativeJob : JobSpec :=
  { talkativeJob with directories := [] }

theorem log_tells_what_became_of_talkativeJob :
    (∃ done events, (talkativeJob.compile {}).value = .ok done ∧
      (talkativeJob.compile {}).log =
        (.identityIgnored (.ofText "id_rsa") :: events).map (JobEvent.record "db") ∧
      (talkativeJob.resolve {}).Tells (.ok done) events ∧
      (talkativeJob.compile {}).log.map (·.level) = [.debug, .debug, .warn, .info]) ∧
    (emptyTalkativeJob.compile {}).value = .error (.rejected ⟨"db", .missingSource⟩) ∧
    (emptyTalkativeJob.compile {}).log ≠ [] ∧
    ∀ record ∈ (emptyTalkativeJob.compile {}).log, record.level = .debug := by
  obtain ⟨⟨events, hlog, htells, -⟩, -⟩ := log_tells_what_became_of_a_job talkativeJob {}
  obtain ⟨done, hdone⟩ : ∃ done, (talkativeJob.compile {}).value = .ok done := ⟨_, rfl⟩
  have hfails : (emptyTalkativeJob.compile {}).value =
      .error (.rejected ⟨"db", .missingSource⟩) := rfl
  have hquiet := (log_tells_what_became_of_a_job emptyTalkativeJob {}).2 _ hfails
  rw [hdone] at htells
  exact ⟨⟨done, events, hdone, hlog, htells, rfl⟩, hfails, List.cons_ne_nil _ _, hquiet⟩

end BackupPlan
