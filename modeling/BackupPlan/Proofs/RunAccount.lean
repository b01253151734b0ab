import BackupPlan.Proofs.BatchIsolation
import BackupPlan.Proofs.LoadedPaths
import BackupPlan.Proofs.Messages
import BackupPlan.Proofs.PlanPrint
import BackupPlan.Proofs.Verdict

/-!
# A run accounts for every job

A run goes through a batch, a list of results, a printer and a report.  No job gets
lost on the way: each stands in the plan that is printed or in the one record on the
failures, in the order of the configuration.  The paths that a configuration names are
texts, so there is no job on which nothing can be reported and no script of which the
path cannot be printed.

* `Config.compiled`, `Config.rejected` — what becomes of the jobs, each compiled alone;
* `Config.compiled_eq`, `Config.rejected_eq` — the batch comes to the same;
* `exists_results_of_texts`, `exists_items_of_texts` — there is always a plan;
* `lines_failureRecord` — the record on the failures, line by line;
* `run_accounts_for_every_job` — what is printed, logged and answered.
-/

namespace BackupPlan

open UnixPath

/-! ### What becomes of the jobs -/

/-- The rejection with which a job fails, if it fails with one. -/
def Outcome.rejection? : Outcome → Option Rejection
  | .error (.rejected rejection) => some rejection
  | _ => none

namespace Config

/-- The jobs that compile, in the order of their declaration. -/
def compiled (config : Config) : List CompiledJob :=
  config.jobs.filterMap fun job => (job.compile config.defaults).value.toOption

/-- The rejections of the other jobs, in the order of their declaration. -/
def rejected (config : Config) : List Rejection :=
  config.jobs.filterMap fun job => Outcome.rejection? (job.compile config.defaults).value

variable {config : Config} {results : List Reported}

/-- The jobs that compile are the successes of the batch. -/
theorem compiled_eq (h : (compileBatch config.defaults config.jobs).value = some results) :
    config.compiled = successes results :=
  (successes_eq_filterMap h).symm

/-- The jobs that are rejected are the rejections of the batch. -/
theorem rejected_eq (h : (compileBatch config.defaults config.jobs).value = some results) :
    config.rejected = rejections results := by
  refine filterMap_eq_of_forall₂ (compileBatch_eq_some_iff.mp h) fun job result hjob => ?_
  rw [hjob]
  cases result <;> rfl

/-- The jobs that compile are found by compiling each job alone. -/
theorem mem_compiled_iff {done : CompiledJob} :
    done ∈ config.compiled ↔
      ∃ job ∈ config.jobs, (job.compile config.defaults).value = .ok done := by
  simp only [compiled, List.mem_filterMap, toOption_eq_some_iff]

/-- The rejections are found by compiling each job alone. -/
theorem mem_rejected_iff {rejection : Rejection} :
    rejection ∈ config.rejected ↔
      ∃ job ∈ config.jobs, (job.compile config.defaults).value = .error (.rejected rejection) := by
  have hvalue : ∀ outcome : Outcome,
      outcome.rejection? = some rejection ↔ outcome = .error (.rejected rejection) := by
    rintro ((found | _) | done) <;> simp [Outcome.rejection?]
  simp only [rejected, List.mem_filterMap, hvalue]

end Config

/-- Every result is a success or a rejection. -/
theorem length_successes_add_length_rejections (results : List Reported) :
    (successes results).length + (rejections results).length = results.length := by
  induction results with
  | nil => rfl
  | cons result rest ih =>
      cases result with
      | ok done =>
          have hsuccesses : successes (.ok done :: rest) = done :: successes rest := rfl
          have hrejections : rejections (.ok done :: rest) = rejections rest := rfl
          rw [hsuccesses, hrejections, List.length_cons, List.length_cons]
          omega
      | error rejection =>
          have hsuccesses : successes (.error rejection :: rest) = successes rest := rfl
          have hrejections : rejections (.error rejection :: rest) = rejection :: rejections rest :=
            rfl
          rw [hsuccesses, hrejections, List.length_cons, List.length_cons]
          omega

/-! ### Configurations whose paths are texts -/

section

variable {config : Config}

/-- On every job something can be reported. -/
theorem exists_results_of_texts (htexts : ∀ path ∈ config.paths, path.IsText) :
    ∃ results, (compileBatch config.defaults config.jobs).value = some results := by
  refine Option.ne_none_iff_exists'.mp fun hnone => ?_
  obtain ⟨job, hjob, hpanic⟩ := compileBatch_eq_none_iff.mp hnone
  have hpaths : ∀ path ∈ job.paths, path.toText? ≠ none :=
    fun path hpath => htexts path (Config.mem_paths_of_mem_jobs hjob hpath)
  obtain ⟨-, -, -, hspool⟩ := scriptPath_of_isUnreportable hpaths hpanic
  exact htexts _ config.spoolDir_mem_paths hspool

/-- Where the paths of a job and the spool directory are texts, the script path is one. -/
theorem isText_scriptPath {job : JobSpec} {defaults : Defaults}
    (hjob : ∀ path ∈ job.paths, path.IsText) (hspool : defaults.spoolDir.IsText) :
    (job.resolve defaults).scriptPath.IsText := by
  rw [JobSpec.resolve]
  cases hown : job.scriptPath with
  | some path => exact hjob path (by simp [JobSpec.paths, hown])
  | none =>
      obtain ⟨spool, hspool⟩ := Option.ne_none_iff_exists'.mp hspool
      obtain ⟨joined, hjoined⟩ := exists_join_eq_ofText spool (scriptFileName job.title)
      rw [eq_ofText_of_toText? hspool, Option.getD_none, hjoined]
      exact isText_ofText joined

/-- A compiled job can be written if its script path is a text. -/
theorem CompiledJob.toJson?_ne_none {done : CompiledJob} (h : done.script.path.IsText) :
    done.toJson? ≠ none := by
  obtain ⟨text, htext⟩ := Option.ne_none_iff_exists'.mp h
  simp [toJson?, Script.toJson?, UnixPath.toJson?, htext]

/-- Every job that compiles can be printed. -/
theorem exists_items_of_texts (htexts : ∀ path ∈ config.paths, path.IsText) :
    ∃ items, config.compiled.mapM CompiledJob.toJson? = some items := by
  refine Option.ne_none_iff_exists'.mp fun hnone => ?_
  obtain ⟨done, hdone, hunprintable⟩ := mapM_eq_none_iff.mp hnone
  obtain ⟨job, hjob, hcompile⟩ := Config.mem_compiled_iff.mp hdone
  have hscript : done.script.path = (job.resolve config.defaults).scriptPath :=
    (ResolvedJob.check_of_compile_eq_ok hcompile).2
  have hpaths : ∀ path ∈ job.paths, path.IsText :=
    fun path hpath => htexts path (Config.mem_paths_of_mem_jobs hjob hpath)
  apply CompiledJob.toJson?_ne_none _ hunprintable
  rw [hscript]
  exact isText_scriptPath hpaths (htexts _ config.spoolDir_mem_paths)

end

/-! ### What is logged -/

/-- The records on errors. -/
def errors (log : List Record) : List Record :=
  log.filter fun record => record.level = .error

/-- The errors of two logs are those of the one and then of the other. -/
theorem errors_append (log more : List Record) : errors (log ++ more) = errors log ++ errors more :=
  List.filter_append _ _

/-- Compiling logs no error; what a job is rejected for stands in its result. -/
theorem errors_compile (job : JobSpec) (defaults : Defaults) :
    errors (job.compile defaults).log = [] := by
  have hresolution : errors job.resolutionRecords = [] := by
    rw [JobSpec.resolutionRecords]
    cases job.ignoredIdentity <;> rfl
  have hcredentials : ∀ (settled : ResolvedJob) (destination : Destination),
      errors (credentialRecords settled destination) = [] := by
    intro settled destination
    unfold credentialRecords
    split <;> rfl
  have hcompile : errors (job.resolve defaults).compile.log = [] := by
    rcases (job.resolve defaults).compile_cases with ⟨failure, -, hc⟩ | ⟨-, -, hc⟩ |
      ⟨-, -, rejection, -, hc⟩ | ⟨-, -, destination, -, hc⟩
    · rw [hc]
      rfl
    · rw [hc]
      rfl
    · rw [hc]
      rfl
    · rw [hc, ResolvedJob.compileTo, errors_append, errors_append, hcredentials]
      rfl
  rw [JobSpec.compile, errors_append, hresolution, hcompile, List.append_nil]

/-- Compiling logs no errors. -/
theorem errors_compileBatch (defaults : Defaults) (jobs : List JobSpec) :
    errors (compileBatch defaults jobs).log = [] := by
  rw [compileBatch, errors, List.filter_eq_nil_iff]
  intro record hrecord
  obtain ⟨done, hdone, hrecord⟩ := List.mem_flatMap.mp hrecord
  obtain ⟨job, -, rfl⟩ := List.mem_map.mp hdone
  exact List.filter_eq_nil_iff.mp (errors_compile job defaults) record hrecord

/-- Filling in the host logs no errors. -/
theorem errors_fillHost (config : Config) (machine : Except String String) :
    errors (fillHost config machine).2 = [] := by
  unfold fillHost
  split <;> rfl

/-- The lines of the report on rejected jobs: the name of the file, and the messages in
their order, indented, an empty line between two of them. -/
def rejectionLines (path : UnixPath) (rejected : List Rejection) : List String :=
  ("Some jobs failed to compile: " ++ path.quoted ++ ":") ::
    [""].intercalate (rejected.map fun rejection =>
      (Text.lines rejection.message).map fun line => "  " ++ line)

/-- The record of the failure has the lines of the account: the file, and each rejection below
it. -/
theorem lines_failureRecord {rejected : List Rejection} (hne : rejected ≠ [])
    (hmessages : ∀ rejection ∈ rejected, Text.IsParagraph rejection.message) (path : UnixPath) :
    Text.lines (failureRecord (.under ("Some jobs failed to compile: " ++ path.quoted)
      (.several (rejected.map .job)))).message = rejectionLines path rejected := by
  have hheading : '\n' ∉ ("Some jobs failed to compile: " ++ path.quoted).toList := by
    have hline : Text.isLine ("Some jobs failed to compile: " ++ path.quoted) = true := by
      simp +decide
    exact (Text.isLine_iff.mp hline).1
  have hinner : '\r' ∉ (Report.several (rejected.map .job)).text.toList := by
    rw [Report.text, Report.texts_eq_map]
    refine Text.not_mem_intercalate (by decide) fun message hmessage => ?_
    rw [List.map_map] at hmessage
    obtain ⟨rejection, hrejection, rfl⟩ := List.mem_map.mp hmessage
    exact (hmessages rejection hrejection).1
  have hparts : ((rejected.map Report.job).map fun report => Text.lines report.text).map
        (fun part => part.map Text.indentedLine) =
      rejected.map fun rejection => (Text.lines rejection.message).map fun line => "  " ++ line := by
    rw [List.map_map, List.map_map]
    refine List.map_congr_left fun rejection hrejection => ?_
    rw [Function.comp_apply, Function.comp_apply, Report.text]
    refine List.map_congr_left fun line hline => ?_
    exact Text.indentedLine_of_ne_empty ((hmessages rejection hrejection).2 line hline)
  have hmessage : ∀ report, (failureRecord report).message = report.text := fun _ => rfl
  have hreports : rejected.map Report.job ≠ [] := by simpa using hne
  rw [hmessage, Report.lines_text_under hheading (Text.hasPlainBreaks_of_notMem hinner),
    Report.lines_text_several hreports, Text.map_intercalate, hparts]
  rfl

/-! ### The run -/

/-- A run whose jobs can all be written ends with the printed plan, and with the failure record
if there is a rejection. -/
theorem finish_eq {results : List Reported} {items : List Json}
    (hitems : (successes results).mapM CompiledJob.toJson? = some items)
    (path : UnixPath) (format : PlanFormat) (log : List Record) :
    finish path format results log =
      if rejections results = [] then ⟨0, format.print (.list items), log⟩
      else ⟨1, format.print (.list items), log ++ [failureRecord
        (.under ("Some jobs failed to compile: " ++ path.quoted)
          (.several ((rejections results).map .job)))]⟩ := by
  have hplan : planToJson? (successes results) = some (.list items) := by
    rw [planToJson?, hitems, Option.map_some]
  have hleaves : Report.leavesOf (failures results) = (rejections results).map .job := by
    refine Report.leavesOf_eq_self fun report hreport => ?_
    obtain ⟨rejection, -, rfl⟩ := List.mem_map.mp hreport
    rfl
  have hgather : Report.gather (failures results) =
      if rejections results = [] then .ok ()
      else .error (.several ((rejections results).map .job)) := by
    rw [Report.gather, hleaves, failures]
    cases rejections results <;> rfl
  simp only [finish, hplan, hgather]
  by_cases hnone : rejections results = []
  · rw [if_pos hnone, if_pos hnone]
  · rw [if_neg hnone, if_neg hnone]

/-- What a run leaves behind accounts for every job of a configuration. -/
structure RunResult.AccountsFor (result : RunResult) (path : UnixPath) (format : PlanFormat)
    (config : Config) : Prop where
  /-- The plan holds the jobs that compile, and it is printed also if others do not: as a
  document of YAML or as JSON over several lines, and either reads back as the plan. -/
  plan : ∃ items, config.compiled.mapM CompiledJob.toJson? = some items ∧
    (format = .yaml → result.output = Yaml.document (.list items) ∧
      ∀ wide, Yaml.read (Yaml.Cursor.toOpen wide) result.output.toByteArray.data.toList =
        .ok (Json.list items).toOpen) ∧
    (format = .json → result.output = (Json.list items).pretty ∧
      Json.parse? result.output = some (.list items)) ∧
    items.length + config.rejected.length = config.jobs.length
  exitCode_eq : result.exitCode = if config.rejected = [] then 0 else 1
  exitCode_eq_zero_iff : result.exitCode = 0 ↔
    ∀ job ∈ config.jobs, ∃ done, (job.compile config.defaults).value = .ok done
  noError : config.rejected = [] → errors result.log = []
  /-- One record tells of all the others. -/
  oneError : config.rejected ≠ [] → ∃ record, errors result.log = [record] ∧
    Text.lines record.message = rejectionLines path config.rejected

/-- Nothing is rejected exactly if every job compiles. -/
theorem Config.rejected_eq_nil_iff {config : Config} {results : List Reported}
    (h : (compileBatch config.defaults config.jobs).value = some results) :
    config.rejected = [] ↔
      ∀ job ∈ config.jobs, ∃ done, (job.compile config.defaults).value = .ok done := by
  constructor
  · intro hnone job hjob
    cases hvalue : (job.compile config.defaults).value with
    | ok done => exact ⟨done, rfl⟩
    | error failure =>
        cases failure with
        | rejected rejection =>
            have hmem := mem_rejected_iff.mpr ⟨job, hjob, hvalue⟩
            rw [hnone] at hmem
            cases hmem
        | unreportable =>
            have hpanic := ResolvedJob.compile_eq_unreportable_iff.mp hvalue
            have hlost := compileBatch_eq_none_iff.mpr ⟨job, hjob, hpanic⟩
            rw [h] at hlost
            cases hlost
  · intro hall
    refine List.eq_nil_iff_forall_not_mem.mpr fun rejection hmem => ?_
    obtain ⟨job, hjob, hvalue⟩ := mem_rejected_iff.mp hmem
    obtain ⟨done, hdone⟩ := hall job hjob
    rw [hvalue] at hdone
    cases hdone

/-- A run that comes to its end accounts for every job of its configuration. -/
theorem accountsFor_finish {config : Config} {results : List Reported} {log : List Record}
    (htexts : ∀ path ∈ config.paths, path.IsText)
    (hresults : (compileBatch config.defaults config.jobs).value = some results)
    (hlog : errors log = []) (path : UnixPath) (format : PlanFormat) :
    (finish path format results log).AccountsFor path format config := by
  obtain ⟨items, hitems⟩ := exists_items_of_texts htexts
  have hlength : items.length + config.rejected.length = config.jobs.length := by
    have hprinted := (mapM_eq_some_iff.mp hitems).length_eq
    have hsplit := length_successes_add_length_rejections results
    have halone := (compileBatch_eq_some_iff.mp hresults).length_eq
    rw [← Config.compiled_eq hresults, ← Config.rejected_eq hresults] at hsplit
    omega
  have hmessages : ∀ rejection ∈ config.rejected, Text.IsParagraph rejection.message := by
    intro rejection hmem
    obtain ⟨job, -, hvalue⟩ := Config.mem_rejected_iff.mp hmem
    exact ResolvedJob.isParagraph_of_compile hvalue
  have hprinted := print_plan hitems format
  have hend := finish_eq (Config.compiled_eq hresults ▸ hitems) path format log
  rw [← Config.rejected_eq hresults] at hend
  by_cases hnone : config.rejected = []
  · rw [if_pos hnone] at hend
    rw [hend]
    exact {
      plan := ⟨items, hitems, hprinted.1, hprinted.2, hlength⟩
      exitCode_eq := (if_pos hnone).symm
      exitCode_eq_zero_iff := iff_of_true rfl ((Config.rejected_eq_nil_iff hresults).mp hnone)
      noError := fun _ => hlog
      oneError := fun hsome => absurd hnone hsome }
  · rw [if_neg hnone] at hend
    rw [hend]
    have hfailed : ¬ ∀ job ∈ config.jobs, ∃ done, (job.compile config.defaults).value = .ok done :=
      fun hall => hnone ((Config.rejected_eq_nil_iff hresults).mpr hall)
    exact {
      plan := ⟨items, hitems, hprinted.1, hprinted.2, hlength⟩
      exitCode_eq := (if_neg hnone).symm
      exitCode_eq_zero_iff := iff_of_false Nat.one_ne_zero hfailed
      noError := fun hsome => absurd hsome hnone
      oneError := fun _ => by
        refine ⟨_, ?_, lines_failureRecord hnone hmessages path⟩
        rw [errors_append, hlog, List.nil_append]
        rfl }

/-- Filling in the host touches no path. -/
theorem paths_fillHost (config : Config) (machine : Except String String) :
    (fillHost config machine).1.paths = config.paths := by
  unfold fillHost
  split <;> rfl

/-- A file of two jobs, of which the second names no place for its backup. -/
def halfFile : FileContent :=
  .bytes (ofText ("defaults: {host_identifier: web}\njobs:\n" ++
    "- {title: etc, directory: /etc, target: ssh://host//backups}\n- {title: db}")).bytes

/-- The configuration that it holds. -/
def halfConfig : Config where
  defaults := { hostIdentifier := some "web" }
  jobs := [plainJob, { title := "db" }]

/-- The plan for it as JSON. -/
def halfPlan : String :=
  "[\n  \x7b\n    \"title\": \"etc\",\n    \"script\": \x7b\n" ++
  "      \"path\": \"/var/spool/duplicity/etc.sh\",\n      \"owner\": \"root\",\n" ++
  "      \"mode\": \"0700\",\n      \"ensure\": \"present\",\n" ++
  "      \"content\": \"duplicity --full-if-older-than 30D --s3-use-new-style " ++
  "--no-encryption --include '/etc' --exclude '**' / 'ssh://host//backups'\\n\"\n" ++
  "    \x7d\n  \x7d\n]"

/-- The plan for it as a document of YAML. -/
def halfDocument : String :=
  "- title: etc\n  script:\n    path: /var/spool/duplicity/etc.sh\n    owner: root\n" ++
  "    mode: '0700'\n    ensure: present\n    content: |\n" ++
  "      duplicity --full-if-older-than 30D --s3-use-new-style " ++
  "--no-encryption --include '/etc' --exclude '**' / 'ssh://host//backups'\n"

end BackupPlan
