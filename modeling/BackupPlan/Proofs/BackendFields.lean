import BackupPlan.Proofs.Acceptance

/-!
# Fields of another backend have no influence

A job gives its login, its machine and its key file whatever backend it has, and so do
the defaults.  The backend reads some of these fields only: a remote URL asks for no
login and no machine, a bucket asks for no key file, and a bucket of the Cloud Files
service asks for no machine either.  What it does not read may hold anything; two runs
that differ there alone cannot be told apart.

* `ResolvedJob.compile_congr` — settled jobs compile alike where no stage tells them apart;
* `ResolvedJob.compile_withAccess` — a remote URL asks for no login and no machine;
* `ResolvedJob.compile_withHost` — nor does the Cloud Files service for a machine;
* `resolve_withIdentity` — a key file without a remote URL is dropped before any check;
* `fields_of_other_backends_have_no_influence` — the runs side by side.
-/

namespace BackupPlan

/-! ### Jobs with other values in some fields -/

/-- The job with another login and another machine. -/
def JobSpec.withAccess (job : JobSpec) (destId : Setting String) (destKey : Setting Secret)
    (host : Option String) : JobSpec :=
  { job with destId, destKey, hostIdentifier := host }

/-- The defaults with another login and another machine. -/
def Defaults.withAccess (defaults : Defaults) (destId : Option String) (destKey : Option Secret)
    (host : Option String) : Defaults :=
  { defaults with destId, destKey, hostIdentifier := host }

/-- The job with another machine. -/
def JobSpec.withHost (job : JobSpec) (host : Option String) : JobSpec :=
  { job with hostIdentifier := host }

/-- The job with another key file. -/
def JobSpec.withIdentity (job : JobSpec) (identity : Option UnixPath) : JobSpec :=
  { job with sshIdentity := identity }

namespace ResolvedJob

/-- The settled job with another login and another machine. -/
def withAccess (job : ResolvedJob) (destId : Option String) (destKey : Option Secret)
    (host : Option String) : ResolvedJob :=
  { job with destId, destKey, hostIdentifier := host }

/-- The settled job with another machine. -/
def withHost (job : ResolvedJob) (host : Option String) : ResolvedJob :=
  { job with hostIdentifier := host }

variable {job other : ResolvedJob}

/-! ### What tells settled jobs apart -/

/-- The verdict on a job depends on what the rules and the checks find, and on nothing
else. -/
theorem check_congr (htitle : job.title = other.title) (hensure : job.ensure = other.ensure)
    (hcause : job.structuralCause = other.structuralCause)
    (hfields : job.fieldChecks = other.fieldChecks)
    (hremoval : job.removalIssues = other.removalIssues) : job.check = other.check := by
  simp only [check, htitle, hensure, hcause, hfields, hremoval]

/-- **Settled jobs compile alike** where neither the verdict nor the destination nor what
is written for that destination tells them apart. -/
theorem compile_congr (hensure : job.ensure = other.ensure) (hcheck : job.check = other.check)
    (hremoval : job.compileRemoval = other.compileRemoval)
    (hplace : job.destination = other.destination)
    (hwritten : ∀ destination, job.destination = .ok destination →
      job.compileTo destination = other.compileTo destination) :
    job.compile = other.compile := by
  unfold compile
  rw [← hensure, ← hcheck, ← hremoval, ← hplace]
  cases hfound : job.destination with
  | error rejection => rfl
  | ok destination => simp only [hwritten destination hfound]

/-! ### Remote URLs -/

/-- A remote URL leads to a remote host. -/
theorem kind_of_target {target : String} (htarget : job.target = some target)
    {destination : Destination} (h : job.destination = .ok destination) :
    destination.kind = .remoteHost := by
  simp only [ResolvedJob.destination, htarget, Except.ok.injEq] at h
  rw [← h]

/-- **A remote URL asks for no login and no machine.** -/
theorem compile_withAccess {target : String} (htarget : job.target = some target)
    (destId : Option String) (destKey : Option Secret) (host : Option String) :
    (job.withAccess destId destKey host).compile = job.compile := by
  have htarget' : (job.withAccess destId destKey host).target = some target := htarget
  have hcause : (job.withAccess destId destKey host).structuralCause = job.structuralCause := by
    simp only [structuralCause, htarget, htarget']
    rfl
  have hplace : (job.withAccess destId destKey host).destination = job.destination := by
    simp only [ResolvedJob.destination, htarget, htarget']
    rfl
  refine compile_congr rfl (check_congr rfl rfl hcause rfl rfl) rfl hplace ?_
  intro destination hdestination
  -- What a remote host is sent holds neither credentials nor a record on them.
  have hkind := kind_of_target htarget' hdestination
  have hrecords : ∀ settled : ResolvedJob, credentialRecords settled destination = [] := by
    intro settled
    simp [credentialRecords, hkind, DestinationKind.credentialVariables]
  simp only [compileTo, remoteHost_environment hkind, hrecords]
  rfl

/-! ### Buckets of the Cloud Files service -/

/-- **The Cloud Files service asks for no machine.** -/
theorem compile_withHost (htarget : job.target = none) (hprovider : job.provider = some .cloudFiles)
    (host : Option String) : (job.withHost host).compile = job.compile := by
  have htarget' : (job.withHost host).target = none := htarget
  have hprovider' : (job.withHost host).provider = some .cloudFiles := hprovider
  have hcause : (job.withHost host).structuralCause = job.structuralCause := by
    simp only [structuralCause, htarget, htarget', usesS3Layout, hprovider, hprovider']
    rfl
  have hplace : (job.withHost host).destination = job.destination := by
    simp only [ResolvedJob.destination, htarget, htarget', hprovider, hprovider']
    rfl
  exact compile_congr rfl (check_congr rfl rfl hcause rfl rfl) rfl hplace fun _ _ => rfl

end ResolvedJob

/-! ### Runs side by side -/

section

variable {job : JobSpec} {defaults : Defaults}

/-- A job without a remote URL settles on the same fields with any key file. -/
theorem resolve_withIdentity (htarget : nonEmpty job.target = none) (identity : Option UnixPath) :
    (job.withIdentity identity).resolve defaults = job.resolve defaults := by
  simp only [JobSpec.resolve, JobSpec.withIdentity, htarget]
  rfl

/-- The record on a key file that is dropped for want of a remote URL. -/
def ignoredIdentityRecord (title : String) (path : UnixPath) : Record :=
  ⟨.debug, .resolution,
    "Job " ++ Text.quoted title ++ " has no target, ignoring ssh identity " ++ path.quoted⟩

/-- Without a target, an identity that is given is told as ignored, and nothing else is told
before the checks. -/
theorem resolutionRecords_withIdentity (htarget : nonEmpty job.target = none)
    (identity : Option UnixPath) :
    (job.withIdentity identity).resolutionRecords =
      identity.toList.map (ignoredIdentityRecord job.title) := by
  have htarget' : nonEmpty (job.withIdentity identity).target = none := htarget
  rw [JobSpec.resolutionRecords, JobSpec.ignoredIdentity, htarget']
  cases identity <;> rfl

/-- **Fields of another backend have no influence**, whether the script of the job is to
be written or removed.  With a remote URL, result and records are the same for every
login and every machine that the job or the defaults may give, and no line of the
script hands on a login.  Without one, the result is the same for every key file, and
so are the records but for the one on the key file that is ignored; and if the bucket
belongs to the Cloud Files service, both are the same for every machine. -/
theorem fields_of_other_backends_have_no_influence (job : JobSpec) (defaults : Defaults) :
    (nonEmpty job.target ≠ none →
      (∀ destId destKey host otherId otherKey otherHost,
        (job.withAccess destId destKey host).compile
            (defaults.withAccess otherId otherKey otherHost) =
          job.compile defaults) ∧
      ∀ destination, (job.resolve defaults).destination = .ok destination →
        environment (job.resolve defaults) destination = []) ∧
    (nonEmpty job.target = none →
      (∃ result log, ∀ identity, (job.withIdentity identity).compile defaults =
        ⟨result, identity.toList.map (ignoredIdentityRecord job.title) ++ log⟩) ∧
      (job.provider = .value .cloudFiles → ∀ host otherHost,
        (job.withHost host).compile (defaults.withHost otherHost) = job.compile defaults)) := by
  constructor
  · intro hremote
    obtain ⟨target, htarget⟩ := Option.ne_none_iff_exists'.mp hremote
    have hsettled : (job.resolve defaults).target = some target := htarget
    refine ⟨fun destId destKey host otherId otherKey otherHost => ?_, fun destination h => ?_⟩
    · have hresolve : (job.withAccess destId destKey host).resolve
            (defaults.withAccess otherId otherKey otherHost) =
          (job.resolve defaults).withAccess (nonEmpty (destId.resolve otherId))
            ((destKey.resolve otherKey).filter (·.reveal ≠ ""))
            (nonEmpty (host.or otherHost)) := rfl
      have hrecords : (job.withAccess destId destKey host).resolutionRecords =
          job.resolutionRecords := rfl
      rw [JobSpec.compile, JobSpec.compile, hresolve, hrecords,
        ResolvedJob.compile_withAccess hsettled]
    · exact remoteHost_environment (ResolvedJob.kind_of_target hsettled h)
  · intro hlocal
    have hsettled : (job.resolve defaults).target = none := hlocal
    refine ⟨⟨(job.resolve defaults).compile.value, (job.resolve defaults).compile.log,
      fun identity => ?_⟩, fun hprovider host otherHost => ?_⟩
    · rw [JobSpec.compile, resolve_withIdentity hlocal, resolutionRecords_withIdentity hlocal]
    · have hcloud : (job.resolve defaults).provider = some .cloudFiles := by
        simp only [JobSpec.resolve, hprovider]
        rfl
      have hresolve : (job.withHost host).resolve (defaults.withHost otherHost) =
          (job.resolve defaults).withHost (nonEmpty (host.or otherHost)) := rfl
      have hrecords : (job.withHost host).resolutionRecords = job.resolutionRecords := rfl
      rw [JobSpec.compile, JobSpec.compile, hresolve, hrecords,
        ResolvedJob.compile_withHost hsettled hcloud]

end

/-- A job with a remote URL that also gives a login and a machine. -/
def overloadedJob : JobSpec where
  title := "etc"
  directories := [.ofText "/etc"]
  target := some "ssh://host//backups"
  destId := .value "me"
  destKey := .value ⟨"secret"⟩
  hostIdentifier := some "web"

/-- A job with a bucket of the Cloud Files service that also gives a key file, at a
relative path that is no text. -/
def cloudJob : JobSpec where
  title := "db"
  directories := [.ofText "/srv"]
  bucket := .value "archive"
  destId := .value "me"
  provider := .value .cloudFiles
  sshIdentity := some ⟨[0xFF]⟩

theorem fields_of_overloadedJob_and_cloudJob_have_no_influence :
    (nonEmpty overloadedJob.target ≠ none ∧
      (overloadedJob.withAccess .unset .disabled none).compile { destId := some "other" } =
        overloadedJob.compile {} ∧
      ∃ done, (overloadedJob.compile {}).value = .ok done) ∧
    (nonEmpty cloudJob.target = none ∧ cloudJob.provider = .value .cloudFiles ∧
      (cloudJob.withHost (some "web")).compile {} = cloudJob.compile {} ∧
      ((cloudJob.withIdentity none).compile {}).value = (cloudJob.compile {}).value ∧
      ∃ done, (cloudJob.compile {}).value = .ok done) := by
  have hremote : nonEmpty overloadedJob.target ≠ none := by decide
  have hlocal : nonEmpty cloudJob.target = none := rfl
  obtain ⟨hlogin, -⟩ := (fields_of_other_backends_have_no_influence overloadedJob {}).1 hremote
  obtain ⟨⟨result, log, hidentity⟩, hmachine⟩ :=
    (fields_of_other_backends_have_no_influence cloudJob {}).2 hlocal
  refine ⟨⟨hremote, hlogin .unset .disabled none (some "other") none none, _, rfl⟩,
    hlocal, rfl, hmachine rfl (some "web") none, ?_, _, rfl⟩
  have hgiven := hidentity (some ⟨[0xFF]⟩)
  rw [hidentity none, show cloudJob.compile {} = _ from hgiven]

end BackupPlan
