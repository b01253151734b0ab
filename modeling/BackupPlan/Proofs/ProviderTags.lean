import BackupPlan.Proofs.BackendFields
import BackupPlan.Proofs.DestinationAgreement

/-!
# What a provider tells a job

The provider of a job is looked at by the rule on conflicting destinations, by the rule that
asks a bucket for a machine, and by the choice of the destination.  Without a remote URL all
three ask one question only: whether the provider has an addressing scheme of its own.  S3
has none, so naming it, switching the provider off and leaving it out are the same job.
Beside a remote URL any provider that is named is a conflict.

* `ResolvedJob.compile_withProvider_congr` — providers with the same scheme compile alike;
* `check_of_target_of_provider` — a provider beside a remote URL;
* `naming_s3_is_naming_no_provider` — the runs side by side.
-/

namespace BackupPlan

namespace ResolvedJob

variable {job : ResolvedJob}

/-- The settled job with another provider. -/
def withProvider (job : ResolvedJob) (provider : Option Provider) : ResolvedJob :=
  { job with provider }

/-- Whether a bucket is addressed by machine and title is told from the scheme of its
provider. -/
theorem usesS3Layout_withProvider (htarget : job.target = none) (provider : Option Provider) :
    (job.withProvider provider).usesS3Layout =
      (provider.bind ObjectStorage.ofProvider).isNone := by
  have hnone : (job.withProvider provider).target = none := htarget
  rw [usesS3Layout_eq, hnone]
  rcases provider with _ | _ | _ <;> rfl

/-- **Providers with the same scheme compile alike** where there is no remote URL. -/
theorem compile_withProvider_congr (htarget : job.target = none)
    {provider other : Option Provider}
    (hscheme : provider.bind ObjectStorage.ofProvider = other.bind ObjectStorage.ofProvider) :
    (job.withProvider provider).compile = (job.withProvider other).compile := by
  have hnone : ∀ named, (job.withProvider named).target = none := fun _ => htarget
  have hlayout : (job.withProvider provider).usesS3Layout =
      (job.withProvider other).usesS3Layout := by
    rw [usesS3Layout_withProvider htarget, usesS3Layout_withProvider htarget, hscheme]
  have hcause : (job.withProvider provider).structuralCause =
      (job.withProvider other).structuralCause := by
    have hbucket : ∀ named, (job.withProvider named).bucket = job.bucket := fun _ => rfl
    simp only [structuralCause, hnone, hbucket, hlayout]
    cases job.bucket <;> rfl
  have hplace : (job.withProvider provider).destination =
      (job.withProvider other).destination := by
    have hschemes : (job.withProvider provider).provider.bind ObjectStorage.ofProvider =
        (job.withProvider other).provider.bind ObjectStorage.ofProvider := hscheme
    simp only [ResolvedJob.destination, hnone, hschemes]
    rfl
  exact compile_congr rfl (check_congr rfl rfl hcause rfl rfl) rfl hplace fun _ _ => rfl

/-- A provider beside a remote URL is a conflict. -/
theorem check_of_target_of_provider {target : String} {provider : Provider}
    (hpresent : job.ensure = .present) (htarget : job.target = some target)
    (hprovider : job.provider = some provider) :
    job.check =
      .error (.rejected
        ⟨job.title, .conflictingDestination target job.bucket (some provider)⟩) := by
  apply check_of_structuralCause hpresent
  simp [structuralCause, htarget, hprovider]

end ResolvedJob

/-- The job with another setting for its provider. -/
def JobSpec.withProvider (job : JobSpec) (provider : Setting Provider) : JobSpec :=
  { job with provider }

section

variable {job : JobSpec} {defaults : Defaults}

/-- Resolving passes a provider on against no default, and touches nothing else for it. -/
theorem resolve_withProvider (provider : Setting Provider) :
    (job.withProvider provider).resolve defaults =
      (job.resolve defaults).withProvider (provider.resolve none) :=
  rfl

/-- Two settings of the provider come to the same, records included, where the settled jobs
compile alike. -/
theorem compile_withProvider_eq {provider other : Setting Provider}
    (h : ((job.resolve defaults).withProvider (provider.resolve none)).compile =
      ((job.resolve defaults).withProvider (other.resolve none)).compile) :
    (job.withProvider provider).compile defaults = (job.withProvider other).compile defaults := by
  have hrecords : (job.withProvider provider).resolutionRecords =
      (job.withProvider other).resolutionRecords := rfl
  rw [JobSpec.compile, JobSpec.compile, resolve_withProvider, resolve_withProvider, h, hrecords]

end

/-- **Naming S3 is naming no provider.**  Whatever job and defaults are, switching the
provider off comes to the same as leaving it out, in result and records; and without a
remote URL so does naming S3.  Beside a remote URL it does not: a job whose script is to be
written is rejected there for every provider it names, with that provider in the report. -/
theorem naming_s3_is_naming_no_provider (job : JobSpec) (defaults : Defaults) :
    (job.withProvider .disabled).compile defaults = (job.withProvider .unset).compile defaults ∧
    (nonEmpty job.target = none →
      (job.withProvider (.value .s3)).compile defaults =
        (job.withProvider .unset).compile defaults) ∧
    ∀ target provider, job.ensure = .present → nonEmpty job.target = some target →
      ((job.withProvider (.value provider)).compile defaults).value =
        .error (.rejected ⟨job.title,
          .conflictingDestination target (job.resolve defaults).bucket (some provider)⟩) := by
  refine ⟨compile_withProvider_eq rfl, fun hlocal => compile_withProvider_eq ?_, ?_⟩
  · have hsettled : (job.resolve defaults).target = none := hlocal
    exact ResolvedJob.compile_withProvider_congr hsettled rfl
  · intro target provider hpresent hremote
    have hcheck : ((job.withProvider (.value provider)).resolve defaults).check = _ :=
      ResolvedJob.check_of_target_of_provider hpresent hremote rfl
    exact ResolvedJob.compile_eq_error_iff.mpr hcheck

/-- A job with an empty remote URL and a bucket that lacks the key to log in with. -/
def keylessJob : JobSpec where
  title := "db"
  directories := [.ofText "/srv"]
  bucket := .value "archive"
  destId := .value "me"
  target := some ""
  hostIdentifier := some "web"

theorem naming_s3_is_naming_no_provider_for_keylessJob :
    nonEmpty keylessJob.target = none ∧
    (keylessJob.withProvider (.value .s3)).compile {} =
      (keylessJob.withProvider .unset).compile {} ∧
    (∃ done, ((keylessJob.withProvider (.value .s3)).compile {}).value = .ok done) ∧
    (nonEmpty overloadedJob.target = some "ssh://host//backups" ∧
      ((overloadedJob.withProvider (.value .s3)).compile {}).value =
        .error (.rejected ⟨"etc",
          .conflictingDestination "ssh://host//backups" none (some .s3)⟩)) := by
  obtain ⟨-, hlocal, -⟩ := naming_s3_is_naming_no_provider keylessJob {}
  obtain ⟨-, -, hremote⟩ := naming_s3_is_naming_no_provider overloadedJob {}
  exact ⟨rfl, hlocal rfl, ⟨_, rfl⟩, rfl, hremote "ssh://host//backups" .s3 rfl rfl⟩

end BackupPlan
