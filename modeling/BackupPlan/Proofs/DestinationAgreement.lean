import BackupPlan.Proofs.ScriptReading
import BackupPlan.Proofs.Verdict

/-!
# The checks and the destination agree

Where a backup goes is decided three times, each time in other words: by the rules
on the whole job, by the choice of the destination, and by the question whether a
bucket is addressed by machine and title.  The destination does not rely on the
rules, so the three have to agree on every settled job, also on those that no check
lets pass.

* `ResolvedJob.destination_eq_error_iff` — the jobs that are refused a destination;
* `ResolvedJob.check_of_destination_eq_error` — they are rejected, and by which rule;
* `ResolvedJob.GoesTo.kind_iff` — the kind of a destination, told from the fields;
* `checks_and_destination_agree` — the three decisions together.
-/

namespace BackupPlan

open Shell

namespace BackupPlace

/-- The kind of destination that a place is. -/
def kind : BackupPlace → DestinationKind
  | remoteHost _ _ => .remoteHost
  | cloudFiles _ => .objectStorage .cloudFiles
  | s3Compatible _ _ _ => .s3Compatible

/-- The variables for the credentials of a place are those of its kind. -/
theorem credentialVariables_kind (place : BackupPlace) :
    place.kind.credentialVariables = place.credentialVariables := by
  cases place <;> rfl

end BackupPlace

/-- No two kinds of destinations read the same variables. -/
theorem DestinationKind.eq_of_credentialVariables_eq {kind other : DestinationKind}
    (h : kind.credentialVariables = other.credentialVariables) : kind = other := by
  rcases kind with ⟨⟨⟩⟩ | _ | _ <;> rcases other with ⟨⟨⟩⟩ | _ | _ <;>
    simp_all [credentialVariables, ObjectStorage.credentialVariables]

/-- Every kind but the remote host takes its credentials from a pair of variables. -/
theorem DestinationKind.exists_variables_of_ne_remoteHost (kind : DestinationKind)
    (h : kind ≠ .remoteHost) : ∃ names, kind.credentialVariables = some names := by
  cases kind with
  | objectStorage storage => exact ⟨_, rfl⟩
  | s3Compatible => exact ⟨_, rfl⟩
  | remoteHost => exact absurd rfl h

/-- A destination has the kind of the place that describes it. -/
theorem BackupPlace.Describes.kind_eq {place : BackupPlace} {destination : Destination}
    (h : place.Describes destination) : destination.kind = place.kind :=
  DestinationKind.eq_of_credentialVariables_eq <|
    h.credentialVariables.trans (credentialVariables_kind place).symm

namespace ResolvedJob

variable {job : ResolvedJob}

/-- The fields of a job that tell the kind of the place it goes to. -/
theorem GoesTo.kind_iff {place : BackupPlace} (h : job.GoesTo place) :
    (place.kind = .remoteHost ↔ job.target ≠ none) ∧
    (place.kind = .s3Compatible ↔ job.usesS3Layout = true) ∧
    ((∃ storage, place.kind = .objectStorage storage) ↔
      job.target = none ∧ job.provider = some .cloudFiles) := by
  rw [usesS3Layout_eq]
  cases h with
  | remoteHost htarget => simp [BackupPlace.kind, htarget]
  | cloudFiles htarget hbucket hprovider =>
      have hstorage : Nonempty ObjectStorage := ⟨.cloudFiles⟩
      simp [BackupPlace.kind, htarget, hprovider]
  | s3Compatible htarget hbucket hprovider hhost => simp [BackupPlace.kind, htarget, hprovider]

/-- Every provider but Cloud Files, and no provider too, means an S3 store. -/
theorem ofProvider_eq_none_iff {provider : Option Provider} :
    provider.bind ObjectStorage.ofProvider = none ↔ provider ≠ some .cloudFiles := by
  rcases provider with _ | _ | _ <;> simp [ObjectStorage.ofProvider]

/-- A destination is refused to jobs with neither remote URL nor bucket, and to those
with a bucket that is addressed by machine where there is no name of one. -/
theorem destination_eq_error_iff {refusal : Rejection} :
    job.destination = .error refusal ↔
      (job.target = none ∧ job.bucket = none ∧ refusal = ⟨job.title, .missingDestination⟩) ∨
      ∃ bucket, job.bucket = some bucket ∧ job.usesS3Layout = true ∧
        job.hostIdentifier = none ∧ refusal = ⟨job.title, .missingHostIdentifier bucket⟩ := by
  rw [usesS3Layout_eq]
  cases htarget : job.target with
  | some target => simp [destination, htarget]
  | none =>
      cases hbucket : job.bucket with
      | none =>
          simp only [destination, htarget, hbucket, Except.error.injEq, true_and, reduceCtorEq,
            false_and, exists_false, or_false]
          exact eq_comm
      | some bucket =>
          by_cases hprovider : job.provider = some .cloudFiles
          · simp [destination, htarget, hbucket, hprovider, ObjectStorage.ofProvider]
          · have hstorage := ofProvider_eq_none_iff.mpr hprovider
            cases hhost : job.hostIdentifier with
            | some host => simp [destination, htarget, hbucket, hstorage, hhost]
            | none =>
                have hlayout : (job.provider != some .cloudFiles) = true := by simpa using hprovider
                simp only [destination, htarget, hbucket, hstorage, hhost, hlayout,
                  Except.error.injEq, Option.some.injEq, reduceCtorEq, Option.isNone_none,
                  Bool.and_self, false_and, and_false, true_and, false_or, exists_eq_left']
                exact eq_comm

/-- A present job that breaks a rule about its fields taken together is rejected with that
cause. -/
theorem check_of_structuralCause {cause : Cause} (hpresent : job.ensure = .present)
    (hcause : job.structuralCause = some cause) :
    job.check = .error (.rejected ⟨job.title, cause⟩) := by
  simp only [check, hpresent, hcause]

/-- The cause for which a job is rejected whose destination is refused for the given
one.  Before it is asked for the name of a machine, it is asked for something to back
up and for a credential. -/
def firstCause (job : ResolvedJob) : Cause → Cause
  | .missingHostIdentifier bucket =>
      if job.directories = [] then .missingSource
      else if job.destId = none ∧ job.destKey = none then .missingCredentials bucket
      else .missingHostIdentifier bucket
  | cause => cause

/-- **Who is refused a destination is rejected**, and for the same cause unless a rule
that is asked earlier applies. -/
theorem check_of_destination_eq_error {refusal : Rejection} (hpresent : job.ensure = .present)
    (h : job.destination = .error refusal) :
    job.check = .error (.rejected ⟨job.title, job.firstCause refusal.cause⟩) := by
  apply check_of_structuralCause hpresent
  rcases destination_eq_error_iff.mp h with
    ⟨htarget, hbucket, rfl⟩ | ⟨bucket, hbucket, hlayout, hhost, rfl⟩
  · simp [structuralCause, htarget, hbucket, firstCause]
  · have htarget : job.target = none := by
      rw [usesS3Layout_eq, Bool.and_eq_true, Option.isNone_iff_eq_none] at hlayout
      exact hlayout.1
    by_cases hsource : job.directories = []
    · simp [structuralCause, htarget, hbucket, firstCause, hsource]
    · by_cases hlogin : job.destId = none ∧ job.destKey = none
      · simp [structuralCause, htarget, hbucket, firstCause, hsource, hlogin]
      · have hgiven : (job.destId.isNone && job.destKey.isNone) = false := by
          rw [Bool.eq_false_iff, Ne, Bool.and_eq_true, Option.isNone_iff_eq_none,
            Option.isNone_iff_eq_none]
          exact hlogin
        simp [structuralCause, htarget, hbucket, firstCause, hsource, hlogin, hgiven, hlayout,
          hhost]

end ResolvedJob

/-- The lines hand credentials to the commands behind them: at least one assignment,
then one `export` of the assigned names. -/
structure HandsOn (lines : List Command) (given : List (String × String)) : Prop where
  ne_nil : given ≠ []
  lines_eq : lines =
    given.map (fun credential => Command.ofArg (.assign credential.1 credential.2)) ++
      [⟨.word "export" :: given.map fun credential => .word credential.1⟩]

/-- The environment of an accepted job is empty where its place reads no variables, and
otherwise hands on the credentials of the job. -/
theorem environment_of_structuralCause_eq_none {job : ResolvedJob} {place : BackupPlace}
    {destination : Destination} (hcause : job.structuralCause = none)
    (hplace : job.GoesTo place) (hdescribes : place.Describes destination) :
    (environment job destination = [] ↔ destination.kind = .remoteHost) ∧
    ∀ names, destination.kind.credentialVariables = some names →
      HandsOn (environment job destination) (job.settledCredentials names) := by
  have hhands : ∀ names, destination.kind.credentialVariables = some names →
      HandsOn (environment job destination) (job.settledCredentials names) := by
    intro names hvariables
    have hne : job.settledCredentials names ≠ [] :=
      ResolvedJob.settledCredentials_ne_nil hcause hplace
        (hdescribes.credentialVariables.symm.trans hvariables)
    exact ⟨hne, ResolvedJob.environment_eq_of_variables hvariables hne⟩
  refine ⟨⟨?_, remoteHost_environment⟩, hhands⟩
  intro hnil
  by_contra hkind
  obtain ⟨names, hvariables⟩ := destination.kind.exists_variables_of_ne_remoteHost hkind
  have hlines := (hhands names hvariables).lines_eq
  rw [hnil] at hlines
  simp at hlines

/-- **The checks and the destination agree** on every settled job whose script is to be
written.  Where the destination is refused the job is rejected, for the same cause
unless there is nothing to back up or no credential, which is asked before the name of
a machine.  The kind of the destination is told by the fields.  And what passes the
checks has a destination: a remote host without an environment, or a bucket whose
environment has an assignment for each credential of the job, at least one, and one
`export` of the assigned names. -/
theorem checks_and_destination_agree {job : ResolvedJob} (hpresent : job.ensure = .present) :
    (∀ refusal, job.destination = .error refusal →
      refusal.title = job.title ∧
      job.check = .error (.rejected ⟨job.title, job.firstCause refusal.cause⟩)) ∧
    (∀ destination, job.destination = .ok destination →
      (destination.kind = .remoteHost ↔ job.target ≠ none) ∧
      (destination.kind = .s3Compatible ↔ job.usesS3Layout = true) ∧
      ((∃ storage, destination.kind = .objectStorage storage) ↔
        job.target = none ∧ job.provider = some .cloudFiles)) ∧
    (job.check = .ok () →
      ∃ destination, job.destination = .ok destination ∧
        (environment job destination = [] ↔ destination.kind = .remoteHost) ∧
        (destination.kind ≠ .remoteHost →
          ∃ names, destination.kind.credentialVariables = some names ∧
            HandsOn (environment job destination) (job.settledCredentials names))) := by
  refine ⟨?_, ?_, ?_⟩
  · intro refusal hrefused
    exact ⟨ResolvedJob.title_of_destination_eq_error hrefused,
      ResolvedJob.check_of_destination_eq_error hpresent hrefused⟩
  · intro destination hdestination
    obtain ⟨place, hplace, hdescribes⟩ := ResolvedJob.exists_place_of_destination hdestination
    rw [hdescribes.kind_eq]
    exact hplace.kind_iff
  · intro hcheck
    have hcause := ((ResolvedJob.check_eq_ok_iff hpresent).mp hcheck).1
    obtain ⟨destination, hdestination⟩ :=
      ResolvedJob.exists_destination_of_structuralCause_eq_none hcause
    obtain ⟨place, hplace, hdescribes⟩ := ResolvedJob.exists_place_of_destination hdestination
    obtain ⟨hnone, hhands⟩ := environment_of_structuralCause_eq_none hcause hplace hdescribes
    refine ⟨destination, hdestination, hnone, ?_⟩
    intro hkind
    obtain ⟨names, hvariables⟩ := destination.kind.exists_variables_of_ne_remoteHost hkind
    exact ⟨names, hvariables, hhands names hvariables⟩

/-- A job with a bucket that no machine is named for, nothing to back up and no
credential. -/
def emptyHandedJob : ResolvedJob where
  title := "db"
  ensure := .present
  directories := []
  bucket := some "archive"
  destId := none
  destKey := none
  provider := some .s3
  target := none
  sshIdentity := none
  pubkeyIds := []
  fullIfOlderThan := "30D"
  removeOlderThan := none
  preCommand := none
  hostIdentifier := none
  scriptPath := .ofText "/var/spool/duplicity/db.sh"
  keyserver := "subkeys.pgp.net"

theorem emptyHandedJob_is_asked_for_its_source_first :
    emptyHandedJob.ensure = .present ∧
    emptyHandedJob.destination = .error ⟨"db", .missingHostIdentifier "archive"⟩ ∧
    emptyHandedJob.check = .error (.rejected ⟨"db", .missingSource⟩) := by
  have hpresent : emptyHandedJob.ensure = .present := rfl
  have hrefused : emptyHandedJob.destination =
      .error ⟨"db", .missingHostIdentifier "archive"⟩ := rfl
  obtain ⟨hrejected, -⟩ := checks_and_destination_agree hpresent
  exact ⟨hpresent, hrefused, (hrejected _ hrefused).2⟩

end BackupPlan
