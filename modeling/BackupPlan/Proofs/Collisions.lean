import BackupPlan.Proofs.DestinationAgreement
import BackupPlan.Proofs.SpoolDirectory
import BackupPlan.Proofs.Titles
import Mathlib.Data.List.NodupEquivFin

/-!
# Jobs of one configuration do not collide

Three names are made of the title of a job: that of its script, the end of its
address in a bucket, and that of its key import.  Two jobs that shared one of them
would overwrite each other.

The check of a configuration lets two empty titles pass, but no job with an empty
title compiles; so jobs that compile have titles of their own, and each of the
three names gives the title back.  In an address the title stands behind a bucket
and a machine name that may hold any slashes, so it is found from the end.

* `Config.title_ne_of_load` — jobs of a loaded configuration differ in their titles;
* `exists_front_of_s3Address`, `title_eq_of_url_eq` — the end of an address;
* `jobs_of_one_configuration_do_not_collide` — the three names.
-/

namespace BackupPlan

open UnixPath

/-! ### Titles -/

/-- A list that has an element at two positions counts it at least twice. -/
theorem two_le_count_of_getElem? {xs : List String} {x : String} {i j : Nat} (hij : i < j)
    (hi : xs[i]? = some x) (hj : xs[j]? = some x) : 2 ≤ xs.count x := by
  obtain ⟨hiLt, hiEq⟩ := List.getElem?_eq_some_iff.mp hi
  obtain ⟨hjLt, hjEq⟩ := List.getElem?_eq_some_iff.mp hj
  rw [← List.duplicate_iff_two_le_count, List.duplicate_iff_exists_distinct_get]
  exact ⟨⟨i, hiLt⟩, ⟨j, hjLt⟩, hij, hiEq.symm, hjEq.symm⟩

namespace Config

variable {config : Config} {path : UnixPath} {file : FileContent}

/-- A configuration that loads has no title twice. -/
theorem not_repeatsTitle_of_load (hload : Config.load path file = .ok config) :
    ¬ config.RepeatsTitle := by
  have hclean := issues_of_load_eq_ok hload
  rw [← reportsJobs_iff (not_isUnreportable_of_issues_eq_ok hclean)]
  exact not_reportsJobs_of_issues_eq_nil hclean

/-- Jobs of a loaded configuration that stand in different places differ in their
titles, unless these are empty. -/
theorem title_ne_of_load (hload : Config.load path file = .ok config) {i j : Nat}
    {job other : JobSpec} (hij : i ≠ j) (hi : config.jobs[i]? = some job)
    (hj : config.jobs[j]? = some other) (hne : job.title ≠ "") : job.title ≠ other.title := by
  intro heq
  apply not_repeatsTitle_of_load hload
  have htitle : config.titles[i]? = some job.title := by
    rw [titles, List.getElem?_map, hi, Option.map_some]
  have htitle' : config.titles[j]? = some job.title := by
    rw [titles, List.getElem?_map, hj, Option.map_some, heq]
  refine ⟨job.title, hne, ?_⟩
  rcases Nat.lt_or_gt_of_ne hij with hlt | hgt
  · exact two_le_count_of_getElem? hlt htitle htitle'
  · exact two_le_count_of_getElem? hgt htitle' htitle

end Config

/-! ### Addresses -/

/-- The title is the last segment but one of an address, behind whatever segments the
bucket and the name of the machine come to. -/
theorem exists_front_of_s3Address (bucket host : String) {title : String}
    (h : '/' ∉ title.toList) :
    ∃ front, (BackupPlace.s3Compatible bucket host title).url.toList.splitOn '/' =
      front ++ [title.toList, []] := by
  have haddress : (BackupPlace.s3Compatible bucket host title).url.toList =
      ("s3+http://" ++ bucket ++ "/" ++ host).toList ++ '/' :: (title.toList ++ '/' :: []) := by
    simp [BackupPlace.url]
  refine ⟨("s3+http://" ++ bucket ++ "/" ++ host).toList.splitOn '/', ?_⟩
  rw [haddress, List.splitOn_append_cons_self, List.splitOn_append_cons_self,
    List.splitOn_eq_singleton h, List.splitOn_nil, List.singleton_append]

/-- Two addresses of one object store that are equal end in the same title, since neither title
has a slash. -/
theorem title_eq_of_url_eq {bucket host title bucket' host' title' : String}
    (h : '/' ∉ title.toList) (h' : '/' ∉ title'.toList)
    (hurl : (BackupPlace.s3Compatible bucket host title).url =
      (BackupPlace.s3Compatible bucket' host' title').url) : title = title' := by
  obtain ⟨front, hfront⟩ := exists_front_of_s3Address bucket host h
  obtain ⟨front', hfront'⟩ := exists_front_of_s3Address bucket' host' h'
  have hends : front ++ [title.toList, []] = front' ++ [title'.toList, []] := by
    rw [← hfront, ← hfront', hurl]
  have hlast : [title.toList, []] = [title'.toList, []] := List.append_inj_right' hends rfl
  exact String.toList_inj.mp (List.head_eq_of_cons_eq hlast)

/-- The address of a job on an object store is that of a bucket and a host under its title. -/
theorem ResolvedJob.exists_url_of_s3Compatible {job : ResolvedJob} {destination : Destination}
    (h : job.destination = .ok destination) (hkind : destination.kind = .s3Compatible) :
    ∃ bucket host, destination.url = (BackupPlace.s3Compatible bucket host job.title).url := by
  obtain ⟨place, hplace, hdescribes⟩ := ResolvedJob.exists_place_of_destination h
  rw [hdescribes.kind_eq] at hkind
  cases hplace with
  | remoteHost => cases hkind
  | cloudFiles => cases hkind
  | s3Compatible => exact ⟨_, _, hdescribes.url⟩

/-! ### Jobs that compile -/

section

variable {job : JobSpec} {defaults : Defaults} {done : CompiledJob}

/-- A job that compiles passed the title check. -/
theorem isTitle_of_compile_eq_ok (h : (job.compile defaults).value = .ok done) :
    Check.isTitle job.title = true :=
  (ResolvedJob.title_and_path_of_check_eq_ok (ResolvedJob.check_of_compile_eq_ok h).1).1

/-- The script of a job without a path of its own is named by the title. -/
theorem getLast?_components_of_compile_eq_ok (h : (job.compile defaults).value = .ok done)
    (hown : job.scriptPath = none) :
    done.script.path.components.getLast? =
      some (.name (ofText (scriptFileName job.title)).bytes) := by
  have hpath : done.script.path = defaults.spoolDir.join (ofText (scriptFileName job.title)) := by
    rw [(ResolvedJob.check_of_compile_eq_ok h).2, JobSpec.resolve, hown, Option.getD_none]
  rw [hpath]
  exact getLast?_components_join_name
    (slash_not_mem_scriptFileName (isTitle_of_compile_eq_ok h))
    (segmentStep_scriptFileName job.title)

/-- A key import is named after the title of its job. -/
theorem name_of_keyImport {job : ResolvedJob} {action : KeyImport}
    (h : job.compile.value = .ok done) (haction : done.keyImport = some action) :
    action.name = "duplicity-pgp-" ++ job.title := by
  rcases job.compile_cases with ⟨failure, -, hc⟩ | ⟨-, -, hc⟩ | ⟨-, -, rejection, -, hc⟩ |
    ⟨-, -, destination, -, hc⟩
  · simp [hc] at h
  · rw [hc] at h
    cases h
    cases haction
  · simp [hc] at h
  · rw [hc] at h
    cases h
    simp only [ResolvedJob.compileTo, KeyImport.ofJob, Option.ite_none_left_eq_some,
      Option.some.injEq] at haction
    rw [← haction.2]

end

/-- Script names with the same bytes come from the same title. -/
theorem title_eq_of_scriptFileName_bytes_eq {title title' : String}
    (h : (ofText (scriptFileName title)).bytes = (ofText (scriptFileName title')).bytes) :
    title = title' := by
  have htext := congrArg toText? (eq_of_bytes_eq h)
  rw [toText?_ofText, toText?_ofText, Option.some.injEq, scriptFileName, scriptFileName] at htext
  exact (String.append_left_inj _).mp htext

/-- **Jobs of one configuration do not collide.**  Two jobs that stand in different
places of a loaded configuration and both compile, under the defaults of the
configuration or any others, do not share a script if neither names a path for it,
nor an address if both go to a bucket that is addressed by machine and title, nor the
name of a key import if both have one. -/
theorem jobs_of_one_configuration_do_not_collide {path : UnixPath} {file : FileContent}
    {config : Config} (hload : Config.load path file = .ok config)
    {i j : Nat} {job other : JobSpec} (hij : i ≠ j)
    (hi : config.jobs[i]? = some job) (hj : config.jobs[j]? = some other)
    {defaults : Defaults} {done done' : CompiledJob}
    (hdone : (job.compile defaults).value = .ok done)
    (hdone' : (other.compile defaults).value = .ok done') :
    (job.scriptPath = none → other.scriptPath = none →
      ¬ done.script.path.Same done'.script.path) ∧
    (∀ destination destination',
      (job.resolve defaults).destination = .ok destination →
      (other.resolve defaults).destination = .ok destination' →
      destination.kind = .s3Compatible → destination'.kind = .s3Compatible →
      destination.url ≠ destination'.url) ∧
    (∀ action action', done.keyImport = some action → done'.keyImport = some action' →
      action.name ≠ action'.name) := by
  have htitle := isTitle_of_compile_eq_ok hdone
  have htitle' := isTitle_of_compile_eq_ok hdone'
  have hnonempty : job.title ≠ "" := by
    rintro hempty
    rw [hempty] at htitle
    exact absurd htitle (by decide)
  have hne : job.title ≠ other.title := Config.title_ne_of_load hload hij hi hj hnonempty
  refine ⟨?_, ?_, ?_⟩
  · intro hown hown' hsame
    have hlast := congrArg List.getLast? hsame
    rw [getLast?_components_of_compile_eq_ok hdone hown,
      getLast?_components_of_compile_eq_ok hdone' hown', Option.some.injEq,
      Component.name.injEq] at hlast
    exact hne (title_eq_of_scriptFileName_bytes_eq hlast)
  · intro destination destination' hplace hplace' hkind hkind' hurl
    obtain ⟨bucket, host, haddress⟩ := ResolvedJob.exists_url_of_s3Compatible hplace hkind
    obtain ⟨bucket', host', haddress'⟩ := ResolvedJob.exists_url_of_s3Compatible hplace' hkind'
    rw [haddress, haddress'] at hurl
    exact hne (title_eq_of_url_eq (slash_not_mem_of_isTitle htitle)
      (slash_not_mem_of_isTitle htitle') hurl)
  · intro action action' haction haction' hname
    rw [name_of_keyImport hdone haction, name_of_keyImport hdone' haction'] at hname
    exact hne ((String.append_right_inj _).mp hname)

/-- A job whose bucket and machine together spell the same as those of `deepHostJob`. -/
def deepBucketJob : JobSpec where
  title := "x"
  directories := [.ofText "/"]
  bucket := .value "a/b"
  hostIdentifier := some "c"

/-- A job that takes the name of its machine from the defaults. -/
def deepHostJob : JobSpec where
  title := "y"
  directories := [.ofText "/"]
  bucket := .value "a"

/-- The configuration of these two jobs. -/
def slashedConfig : Config where
  defaults := { destId := some "me" }
  jobs := [deepBucketJob, deepHostJob]

/-- The file that holds this configuration. -/
def slashedFile : FileContent :=
  .bytes (ofText ("defaults: {dest_id: me}\njobs:\n" ++
    "- {title: x, directory: /, bucket: a/b, host_identifier: c}\n" ++
    "- {title: y, directory: /, bucket: a}")).bytes

/-- The file of `slashedConfig` loads to it. -/
theorem load_slashedFile : Config.load (.ofText "jobs.yml") slashedFile = .ok slashedConfig :=
  toOption_eq_some_iff.mp (by decide +kernel)

theorem jobs_of_slashedConfig_do_not_collide :
    Config.load (.ofText "jobs.yml") slashedFile = .ok slashedConfig ∧
    ∃ done done',
      (deepBucketJob.compile (slashedConfig.defaults.withHost (some "b/c"))).value = .ok done ∧
      (deepHostJob.compile (slashedConfig.defaults.withHost (some "b/c"))).value = .ok done' ∧
      ¬ done.script.path.Same done'.script.path ∧
      "s3+http://a/b/c/x/" ≠ "s3+http://a/b/c/y/" := by
  obtain ⟨done, hdone⟩ : ∃ done,
      (deepBucketJob.compile (slashedConfig.defaults.withHost (some "b/c"))).value = .ok done :=
    ⟨_, rfl⟩
  obtain ⟨done', hdone'⟩ : ∃ done',
      (deepHostJob.compile (slashedConfig.defaults.withHost (some "b/c"))).value = .ok done' :=
    ⟨_, rfl⟩
  have hij : 0 ≠ 1 := by decide
  obtain ⟨hscripts, haddresses, -⟩ :=
    jobs_of_one_configuration_do_not_collide load_slashedFile hij rfl rfl hdone hdone'
  exact ⟨load_slashedFile, done, done', hdone, hdone', hscripts rfl rfl,
    haddresses ⟨.s3Compatible, "s3+http://a/b/c/x/", []⟩
      ⟨.s3Compatible, "s3+http://a/b/c/y/", []⟩ rfl rfl rfl rfl⟩

end BackupPlan
