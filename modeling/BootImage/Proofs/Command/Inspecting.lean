import BootImage.Proofs.Command.Running

/-! Inspecting a file from the command line. Whatever stands around it, an inspection of a file
whose header passes every check ends with status zero, silent or not; a file without a header, or
with one that fails a check, never does. -/

namespace BootImage.Command

variable {files : FileStore} {path : String} {file payload : Bytes} {header : Header}

def HasRoom (files : FileStore) (header : Header) (payload : Bytes) (outfile : Option String) :
    Prop :=
  ∀ report, outfile = some report → ∃ after,
    files.write report (Bytes.ofText
      (Inspection.yaml header payload (header.check payload))) = .ok after

theorem inspect_concludes (hread : files.read path = .ok file)
    (hparts : Header.ofBytes? file = some (header, payload)) {outfile : Option String}
    (hroom : HasRoom files header payload outfile) (silent : Bool) :
    ∃ after, Inspection.inspect files path outfile silent =
      Inspection.conclude after path header payload silent := by
  have hheader : Inspection.readHeader files path = .ok (header, payload) := by
    rw [Inspection.readHeader, hread]
    dsimp only
    rw [hparts]
  rw [Inspection.inspect, hheader]
  cases outfile with
  | none => exact ⟨files, rfl⟩
  | some report =>
    obtain ⟨after, hwrite⟩ := hroom report rfl
    refine ⟨after, ?_⟩
    dsimp only
    rw [hwrite]

theorem inspectFile_succeeds (hread : files.read path = .ok file)
    (hparts : Header.ofBytes? file = some (header, payload))
    (hchecks : (header.check payload).all = true) {outfile : Option String}
    (hroom : HasRoom files header payload outfile) (silent : Bool) {trace : Trace}
    (htrace : trace.files = files) :
    Succeeds ((inspectFile path outfile silent).run.run trace) := by
  obtain ⟨after, hinspect⟩ := inspect_concludes hread hparts hroom silent
  subst htrace
  rw [inspectFile, run_bind]
  simp only [run_get, run_bind, run_modify, run_print, hinspect, Inspection.conclude]
  cases silent with
  | true =>
    right
    simp [run_orStop_error, hchecks, inspectionStop]
  | false =>
    left
    simp [run_orStop_ok, run_print, hchecks]

/-- Scanned arguments that ask for an inspection of one file. -/
structure Scanned.Inspects (scanned : Scanned) (path : String) (outfile : Option String) :
    Prop where
  operands : scanned.operands = [path]
  outfile : scanned.value? "outfile" = outfile
  help : scanned.isGiven "help" = false
  free : ∀ setting ∈ scanned.settings, setting.option.choices = []

theorem Scanned.Inspects.check {scanned : Scanned} {outfile : Option String}
    (h : scanned.Inspects path outfile) :
    scanned.check CommandName.dumpinfo.spec = .ok () := by
  apply Scanned.check_eq_ok
  · intro setting hmem
    simp [checkGiven, h.free setting hmem]
  · intro entry hmem
    have hentry : entry = (⟨"IMGFILE", true⟩, 0) := List.mem_singleton.mp hmem
    simp [hentry, checkOperand, operand?, h.operands]
  · intro option hmem
    have hfree : option.required = false := by
      revert option
      decide
    simp [checkAbsent, hfree]
  · rw [h.operands, List.length_singleton]
    decide

theorem runCommand_inspects {outfile : Option String} {arguments : List String}
    {scanned : Scanned}
    (hscan : scan CommandName.dumpinfo.spec.options true none {} arguments = .ok scanned)
    (hinspects : scanned.Inspects path outfile) (host : Host) (files : FileStore)
    (typed : String) :
    (runCommand host .dumpinfo typed arguments).run.run { files } =
      (inspectFile path outfile (flag scanned "silent")).run.run { files } := by
  have hpath : (scanned.operand? 0).getD "" = path := by
    rw [Scanned.operand?, hinspects.operands]
    rfl
  rw [runCommand_of_scan hscan hinspects.help hinspects.check, perform, hpath, hinspects.outfile]

def silentOption : OptionSpec := { short := some 's', long := "silent", takesValue := false }

def outfileOption : OptionSpec := { short := some 'o', long := "outfile" }

def silenceArguments : List (List String) := [[], ["-s"], ["--silent"]]

def reportArguments : Option String → List String
  | none => []
  | some outfile => ["-o", outfile]

theorem scan_silence {flags : List String} (h : flags ∈ silenceArguments) (seen : Scanned)
    (rest : List String) :
    scan CommandName.dumpinfo.spec.options true none seen (flags ++ rest) =
      scan CommandName.dumpinfo.spec.options true none
        { seen with settings := seen.settings ++ flags.map fun _ => ⟨silentOption, ""⟩ } rest := by
  simp only [silenceArguments, List.mem_cons, List.not_mem_nil, or_false] at h
  rcases h with rfl | rfl | rfl
  · rw [List.map_nil, List.append_nil, List.nil_append]
  · exact scan_option rfl (by decide) rfl rest
  · exact scan_option rfl (by decide) rfl rest

theorem scan_report (outfile : Option String) (rest : List String) :
    scan CommandName.dumpinfo.spec.options true none {} (reportArguments outfile ++ rest) =
      scan CommandName.dumpinfo.spec.options true none
        { settings := outfile.toList.map fun o => ⟨outfileOption, o⟩ } rest := by
  cases outfile with
  | none => rfl
  | some outfile => exact scan_value rfl (by decide) rfl outfile rest

/-- What the scan of such arguments finds. -/
def inspectionScan (flags : List String) (path : String) (outfile : Option String) : Scanned where
  settings := (outfile.toList.map fun o => ⟨outfileOption, o⟩) ++
    flags.map fun _ => ⟨silentOption, ""⟩
  operands := [path]

theorem inspects_inspectionScan (flags : List String) (path : String) (outfile : Option String) :
    (inspectionScan flags path outfile).Inspects path outfile where
  operands := rfl
  outfile := by
    have hsilent : (flags.map fun _ => (⟨silentOption, ""⟩ : Setting)).reverse.find?
        (fun setting => setting.option.long == "outfile") = none := by
      apply List.find?_eq_none.mpr
      intro setting hmem
      rw [List.mem_reverse, List.mem_map] at hmem
      obtain ⟨_, _, rfl⟩ := hmem
      decide
    rw [Scanned.value?, inspectionScan, List.reverse_append, List.find?_append, hsilent,
      Option.none_or]
    cases outfile with
    | none => rfl
    | some outfile => rfl
  help := by
    cases outfile with
    | none => simp [Scanned.isGiven, inspectionScan, silentOption]
    | some outfile => simp [Scanned.isGiven, inspectionScan, silentOption, outfileOption]
  free := by
    intro setting hmem
    rw [inspectionScan, List.mem_append, List.mem_map, List.mem_map] at hmem
    rcases hmem with ⟨_, _, rfl⟩ | ⟨_, _, rfl⟩
    · rfl
    · rfl

theorem spells_path {target : List String}
    (h : target = ["--", path] ∨ target = [path] ∧ path.toList.head? ≠ some '-') :
    Spells target [path] := by
  refine h.imp_right fun ⟨htarget, hdash⟩ => ⟨htarget, fun operand hmem => ?_⟩
  rw [List.mem_singleton.mp hmem]
  exact isOperand_of_head? hdash

theorem run_dumpinfo {flags : List String} (hflags : flags ∈ silenceArguments) (host : Host)
    (files : FileStore) (outfile : Option String) {target : List String}
    (htarget : target = ["--", path] ∨ target = [path] ∧ path.toList.head? ≠ some '-') :
    ∃ usage name silent,
      run host files ("dumpinfo" :: (reportArguments outfile ++ flags ++ target)) =
        conclude usage name ((inspectFile path outfile silent).run.run { files }) := by
  have hoperand : IsOperand "dumpinfo" := isOperand_of_head? (by decide)
  have hname : CommandName.ofName? "dumpinfo" = some .dumpinfo := by decide
  have hscan : scan CommandName.dumpinfo.spec.options true none {}
      (reportArguments outfile ++ flags ++ target) =
      .ok (inspectionScan flags path outfile) := by
    rw [List.append_assoc, scan_report, scan_silence hflags, scan_operands (spells_path htarget)]
    rfl
  refine ⟨CommandName.dumpinfo.spec.usage "dumpinfo", programName ++ " " ++ "dumpinfo",
    flag (inspectionScan flags path outfile) "silent", ?_⟩
  rw [run_named hoperand hname,
    runCommand_inspects hscan (inspects_inspectionScan flags path outfile)]

/-- An executable that passes every check is accepted, however its inspection is asked for. -/
theorem exitCode_dumpinfo (hread : files.read path = .ok file)
    (hparts : Header.ofBytes? file = some (header, payload))
    (hchecks : (header.check payload).all = true) {outfile : Option String}
    (hroom : HasRoom files header payload outfile) {flags : List String}
    (hflags : flags ∈ silenceArguments) (host : Host) {target : List String}
    (htarget : target = ["--", path] ∨ target = [path] ∧ path.toList.head? ≠ some '-') :
    (run host files ("dumpinfo" :: (reportArguments outfile ++ flags ++ target))).exitCode = 0 := by
  obtain ⟨usage, name, silent, hrun⟩ := run_dumpinfo hflags host files outfile htarget
  rw [hrun, exitCode_eq_zero_iff]
  exact inspectFile_succeeds hread hparts hchecks hroom silent rfl

/-- What no inspection lets pass: a file too short for a header, or one that fails a check. -/
def FailsInspection (file : Bytes) : Prop :=
  ∀ header payload, Header.ofBytes? file = some (header, payload) →
    (header.check payload).all = false

theorem inspect_fails (hread : files.read path = .ok file) (hfails : FailsInspection file)
    (outfile : Option String) (silent : Bool) :
    (Inspection.inspect files path outfile silent).outcome ≠ .error (.silentStatus 0) ∧
    ∀ checks, (Inspection.inspect files path outfile silent).outcome = .ok checks →
      checks.all = false := by
  rw [Inspection.inspect, Inspection.readHeader, hread]
  dsimp only
  cases hparts : Header.ofBytes? file with
  | none => simp
  | some parts =>
    obtain ⟨header, payload⟩ := parts
    have hchecks := hfails header payload hparts
    have hconclude (after : FileStore) :
        (Inspection.conclude after path header payload silent).outcome ≠ .error (.silentStatus 0) ∧
        ∀ checks, (Inspection.conclude after path header payload silent).outcome = .ok checks →
          checks.all = false := by
      cases silent with
      | true => simp [Inspection.conclude, hchecks]
      | false => simp [Inspection.conclude, hchecks]
    cases outfile with
    | none => exact hconclude files
    | some report =>
      dsimp only
      split
      · simp
      · exact hconclude _

theorem not_succeeds_inspectFile {trace : Trace} (hread : trace.files.read path = .ok file)
    (hfails : FailsInspection file) (outfile : Option String) (silent : Bool) :
    ¬ Succeeds ((inspectFile path outfile silent).run.run trace) := by
  obtain ⟨hstatus, hchecks⟩ := inspect_fails hread hfails outfile silent
  rw [inspectFile, run_bind]
  simp only [run_get, run_bind, run_modify, run_print]
  cases houtcome : (Inspection.inspect trace.files path outfile silent).outcome with
  | error e =>
    rw [houtcome] at hstatus
    cases e <;> simp_all [run_orStop_error, inspectionStop, Succeeds]
  | ok checks =>
    rw [run_orStop_ok]
    dsimp only
    rw [hchecks checks houtcome]
    rintro (h | h)
    · cases h
    · cases h

theorem exitCode_dumpinfo_ne_zero (hread : files.read path = .ok file)
    (hfails : FailsInspection file) (outfile : Option String) {flags : List String}
    (hflags : flags ∈ silenceArguments) (host : Host) {target : List String}
    (htarget : target = ["--", path] ∨ target = [path] ∧ path.toList.head? ≠ some '-') :
    (run host files ("dumpinfo" :: (reportArguments outfile ++ flags ++ target))).exitCode ≠ 0 := by
  obtain ⟨usage, name, silent, hrun⟩ := run_dumpinfo hflags host files outfile htarget
  rw [hrun, Ne, exitCode_eq_zero_iff]
  exact not_succeeds_inspectFile hread hfails outfile silent

end BootImage.Command
