import BootImage.Command.Run

/-! Running a command line: tasks one after the other, the exit code of a run, and what the scan of
its arguments finds. -/

namespace BootImage.Command

section

variable {α β ε : Type} {task : Task α} {next : α → Task β} {trace after : Trace}

theorem run_bind (task : Task α) (next : α → Task β) (trace : Trace) :
    ((task >>= next).run.run trace) =
      match task.run.run trace with
      | (.ok a, after) => (next a).run.run after
      | (.error e, after) => (.error e, after) := by
  unfold ExceptT.run StateT.run
  simp only [bind, ExceptT.bind, ExceptT.mk, StateT.bind, ExceptT.bindCont]
  rcases task trace with ⟨_ | _, _⟩ <;> rfl

theorem run_orStop_ok (stop : ε → Stop) (a : α) (trace : Trace) :
    ((orStop stop (.ok a)).run.run trace) = (.ok a, trace) := rfl

theorem run_orStop_error (stop : ε → Stop) (e : ε) (trace : Trace) :
    ((orStop stop (.error e) : Task α).run.run trace) = (.error (stop e), trace) := rfl

theorem run_get (trace : Trace) : ((get : Task Trace).run.run trace) = (.ok trace, trace) := rfl

theorem run_modify (change : Trace → Trace) (trace : Trace) :
    ((modify change : Task PUnit).run.run trace) = (.ok ⟨⟩, change trace) := rfl

theorem run_print (text : String) (trace : Trace) :
    ((print text).run.run trace) =
      (.ok (), { trace with printed := trace.printed ++ Bytes.ofText text }) := rfl

def Ends (task : Task α) (trace : Trace) (a : α) (after : Trace) : Prop :=
  task.run.run trace = (.ok a, after)

theorem ends_bind {b : β} :
    Ends (task >>= next) trace b after ↔
      ∃ a between, Ends task trace a between ∧ Ends (next a) between b after := by
  unfold Ends
  rw [run_bind]
  rcases task.run.run trace with ⟨e | a, between⟩
  · exact iff_of_false (fun h => by cases h) fun ⟨_, _, h, _⟩ => by cases h
  · constructor
    · exact fun h => ⟨a, between, rfl, h⟩
    · rintro ⟨_, _, htask, h⟩
      cases htask
      exact h

theorem ends_pure {a b : α} : Ends (pure a) trace b after ↔ a = b ∧ trace = after := by
  constructor
  · rintro ⟨⟩
    exact ⟨rfl, rfl⟩
  · rintro ⟨rfl, rfl⟩
    rfl

theorem ends_modify {change : Trace → Trace} {u : PUnit} :
    Ends (modify change : Task PUnit) trace u after ↔ change trace = after := by
  constructor
  · rintro ⟨⟩
    rfl
  · rintro rfl
    rfl

theorem ends_orStop {stop : ε → Stop} {result : Except ε α} {a : α} :
    Ends (orStop stop result) trace a after ↔ result = .ok a ∧ trace = after := by
  cases result with
  | error e => exact iff_of_false (fun h => by cases h) fun h => by cases h.1
  | ok b =>
    rw [Except.ok.injEq]
    exact ends_pure

theorem ends_get_bind {next : Trace → Task β} {b : β} :
    Ends (get >>= next) trace b after ↔ Ends (next trace) trace b after := by
  rw [Ends, run_bind, run_get, Ends]

theorem ends_modify_bind {change : Trace → Trace} {next : PUnit → Task β} {b : β} :
    Ends (modify change >>= next) trace b after ↔ Ends (next ⟨⟩) (change trace) b after := by
  rw [Ends, run_bind, run_modify, Ends]

theorem ends_print_bind {text : String} {next : Unit → Task β} {b : β} :
    Ends (print text >>= next) trace b after ↔
      Ends (next ()) { trace with printed := trace.printed ++ Bytes.ofText text } b after := by
  rw [Ends, run_bind, run_print, Ends]

theorem ends_orStop_bind {stop : ε → Stop} {result : Except ε α} {b : β} :
    Ends (orStop stop result >>= next) trace b after ↔
      ∃ a, result = .ok a ∧ Ends (next a) trace b after := by
  cases result with
  | error e => exact iff_of_false (fun h => by cases h) fun ⟨_, h, _⟩ => by cases h
  | ok a => simp only [Except.ok.injEq, exists_eq_left', Ends, run_bind, run_orStop_ok]

theorem ends_discard_orStop {stop : ε → Stop} {result : Except ε α} {u : Unit} :
    Ends (discard (orStop stop result)) trace u after ↔
      ∃ a, result = .ok a ∧ trace = after := by
  have hdiscard : (discard (orStop stop result) : Task Unit) =
      orStop stop result >>= fun _ => pure () := rfl
  rw [hdiscard, ends_orStop_bind]
  simp only [ends_pure, true_and]

def Stops (task : Task α) (trace : Trace) (stop : Stop) (after : Trace) : Prop :=
  task.run.run trace = (.error stop, after)

theorem stops_bind {stop : Stop} :
    Stops (task >>= next) trace stop after ↔
      Stops task trace stop after ∨
        ∃ a between, Ends task trace a between ∧ Stops (next a) between stop after := by
  unfold Stops Ends
  rw [run_bind]
  rcases task.run.run trace with ⟨e | a, between⟩
  · constructor
    · exact fun h => Or.inl (by cases h; rfl)
    · rintro (h | ⟨_, _, h, _⟩)
      · cases h
        rfl
      · cases h
  · constructor
    · exact fun h => Or.inr ⟨a, between, rfl, h⟩
    · rintro (h | ⟨_, _, ⟨⟩, h⟩)
      · cases h
      · exact h

/-- A run succeeds when the command goes on to its end, or stops with status zero. -/
def Succeeds (result : Except Stop Unit × Trace) : Prop :=
  result.1 = .ok () ∨ result.1 = .error (.status 0)

theorem exitCode_eq_zero_iff {result : Except Stop Unit × Trace} {usage path : String} :
    (conclude usage path result).exitCode = 0 ↔ Succeeds result := by
  obtain ⟨outcome, trace⟩ := result
  rcases outcome with (_ | _ | _ | _) | _ <;> simp [conclude, Succeeds]

/-- When a task stops early, it shows a message or fails. -/
def StopsLoudly (task : Task α) : Prop :=
  ∀ trace code, (task.run.run trace).1 ≠ .error (.status code)

theorem succeeds_iff_of_stopsLoudly {task : Task Unit} (h : StopsLoudly task) :
    Succeeds (task.run.run trace) ↔ ∃ after, Ends task trace () after := by
  have hstatus := h trace 0
  constructor
  · rintro (hok | hzero)
    · exact ⟨_, Prod.ext hok rfl⟩
    · exact absurd hzero hstatus
  · rintro ⟨after, hrun⟩
    exact .inl (congrArg Prod.fst hrun)

theorem stopsLoudly_pure (a : α) : StopsLoudly (pure a) := by
  intro trace code
  simp

theorem stopsLoudly_get : StopsLoudly (get : Task Trace) := by
  intro trace code
  simp [run_get]

theorem stopsLoudly_modify (change : Trace → Trace) :
    StopsLoudly (modify change : Task PUnit) := by
  intro trace code
  simp [run_modify]

theorem stopsLoudly_throw {stop : Stop} (h : ∀ code, stop ≠ .status code) :
    StopsLoudly (throw stop : Task α) := by
  intro trace code hstop
  exact h code (Except.error.inj hstop)

theorem stopsLoudly_orStop {stop : ε → Stop} (h : ∀ e code, stop e ≠ .status code)
    (result : Except ε α) : StopsLoudly (orStop stop result) := by
  cases result with
  | error e => exact stopsLoudly_throw (h e)
  | ok a => exact stopsLoudly_pure a

theorem StopsLoudly.bind (htask : StopsLoudly task) (hnext : ∀ a, StopsLoudly (next a)) :
    StopsLoudly (task >>= next) := by
  intro trace code
  rw [run_bind]
  have hstatus := htask trace code
  split
  · next a after _ => exact hnext a after code
  · next e after hrun =>
    rw [hrun] at hstatus
    rintro ⟨⟩
    exact hstatus rfl

theorem stopsLoudly_discard (h : StopsLoudly task) : StopsLoudly (discard task) :=
  h.bind fun _ => stopsLoudly_pure ()

def KeepsFiles (task : Task α) : Prop :=
  ∀ trace, (task.run.run trace).2.files = trace.files

theorem KeepsFiles.bind (htask : KeepsFiles task) (hnext : ∀ a, KeepsFiles (next a)) :
    KeepsFiles (task >>= next) := by
  intro trace
  have hfiles := htask trace
  rw [run_bind]
  cases hrun : task.run.run trace with
  | mk result after =>
    rw [hrun] at hfiles
    cases result with
    | error e => exact hfiles
    | ok a => exact (hnext a after).trans hfiles

theorem KeepsFiles.of_ends {a : α} (h : KeepsFiles task) (hends : Ends task trace a after) :
    after.files = trace.files := by
  rw [← h trace, hends]

theorem KeepsFiles.of_stops {stop : Stop} (h : KeepsFiles task)
    (hstops : Stops task trace stop after) : after.files = trace.files := by
  rw [← h trace, hstops]

/-- A task that writes nothing, and shows a message or fails when it stops early. -/
structure Prepares (task : Task α) : Prop where
  loud : StopsLoudly task
  keeps : KeepsFiles task

theorem prepares_pure (a : α) : Prepares (pure a) := ⟨stopsLoudly_pure a, fun _ => rfl⟩

theorem prepares_get : Prepares (get : Task Trace) := ⟨stopsLoudly_get, fun _ => rfl⟩

theorem prepares_modify (change : Trace → Trace)
    (h : ∀ trace, (change trace).files = trace.files) :
    Prepares (modify change : Task PUnit) := ⟨stopsLoudly_modify change, h⟩

theorem prepares_print (text : String) : Prepares (print text) :=
  prepares_modify _ fun trace => (rfl : trace.files = trace.files)

theorem prepares_throw {stop : Stop} (h : ∀ code, stop ≠ .status code) :
    Prepares (throw stop : Task α) := ⟨stopsLoudly_throw h, fun _ => rfl⟩

theorem prepares_orStop {stop : ε → Stop} (h : ∀ e code, stop e ≠ .status code)
    (result : Except ε α) : Prepares (orStop stop result) := by
  cases result with
  | error e => exact prepares_throw (h e)
  | ok a => exact prepares_pure a

theorem Prepares.bind (htask : Prepares task) (hnext : ∀ a, Prepares (next a)) :
    Prepares (task >>= next) :=
  ⟨htask.loud.bind fun a => (hnext a).loud, htask.keeps.bind fun a => (hnext a).keeps⟩

end

section

variable {options : List OptionSpec} {mixed : Bool} {seen : Scanned} {argument : String}

/-- An argument that no scan takes for an option, nor for the end of the options. -/
def IsOperand (argument : String) : Prop :=
  ∀ letter letters, argument.toList ≠ '-' :: letter :: letters

theorem isOperand_of_head? (h : argument.toList.head? ≠ some '-') : IsOperand argument := by
  intro letter letters hletters
  exact h (by rw [hletters, List.head?_cons])

theorem scan_option {letter : Char} {letters : List Char} {settings : List Setting}
    {waiting : Option Waiting} (hargument : argument.toList = '-' :: letter :: letters)
    (hend : argument ≠ "--")
    (hread : readOption options argument.toList = .ok (settings, waiting)) (rest : List String) :
    scan options mixed none seen (argument :: rest) =
      scan options mixed waiting { seen with settings := seen.settings ++ settings } rest := by
  rw [hargument] at hread
  rw [scan, if_neg hend, hargument]
  simp only [hread]

theorem scan_value {letter : Char} {letters : List Char} {option : OptionSpec} {name : String}
    (hargument : argument.toList = '-' :: letter :: letters) (hend : argument ≠ "--")
    (hread : readOption options argument.toList = .ok ([], some ⟨option, name⟩)) (value : String)
    (rest : List String) :
    scan options mixed none seen (argument :: value :: rest) =
      scan options mixed none { seen with settings := seen.settings ++ [⟨option, value⟩] }
        rest := by
  rw [scan_option hargument hend hread, scan, List.append_nil]

theorem scan_operand (hargument : IsOperand argument) (rest : List String) :
    scan options true none seen (argument :: rest) =
      scan options true none { seen with operands := seen.operands ++ [argument] } rest := by
  have hend : argument ≠ "--" := by
    rintro rfl
    exact hargument _ _ rfl
  rw [scan, if_neg hend]
  split
  · next letter letters hletters => exact absurd hletters (hargument letter letters)
  · rfl

theorem scan_end (options : List OptionSpec) (mixed : Bool) (seen : Scanned)
    (rest : List String) :
    scan options mixed none seen ("--" :: rest) =
      .ok { seen with operands := seen.operands ++ rest } := by
  rw [scan, if_pos rfl]

/-- Operands as they may be written: after the end of the options, or as they are when none of them
looks like an option. -/
def Spells (written operands : List String) : Prop :=
  written = "--" :: operands ∨ written = operands ∧ ∀ operand ∈ operands, IsOperand operand

theorem scan_operands {written operands : List String} (h : Spells written operands)
    (seen : Scanned) :
    scan options true none seen written =
      .ok { seen with operands := seen.operands ++ operands } := by
  rcases h with rfl | ⟨rfl, hoperands⟩
  · exact scan_end options true seen operands
  · induction written generalizing seen with
    | nil => rw [scan, List.append_nil]
    | cons operand rest ih =>
      rw [scan_operand (hoperands operand List.mem_cons_self), ih _ fun other hmem =>
        hoperands other (List.mem_cons_of_mem operand hmem), List.append_assoc,
        List.singleton_append]

end

theorem forM_eq_ok {ε α : Type} {check : α → Except ε Unit} {as : List α}
    (h : ∀ a ∈ as, check a = .ok ()) : as.forM check = .ok () := by
  induction as with
  | nil => rfl
  | cons a rest ih =>
    rw [List.forM_eq_forM, List.forM_cons, h a List.mem_cons_self]
    exact ih fun other hmem => h other (List.mem_cons_of_mem a hmem)

theorem Scanned.check_eq_ok {scanned : Scanned} {spec : CommandSpec}
    (hgiven : ∀ setting ∈ scanned.settings, scanned.checkGiven setting = .ok ())
    (hoperands : ∀ entry ∈ spec.operands.zipIdx, scanned.checkOperand entry = .ok ())
    (habsent : ∀ option ∈ spec.options, scanned.checkAbsent option = .ok ())
    (hcount : scanned.operands.length ≤ spec.operands.length) :
    scanned.check spec = .ok () := by
  rw [Scanned.check, forM_eq_ok hgiven, forM_eq_ok hoperands, forM_eq_ok habsent,
    if_neg (by omega)]
  rfl

theorem runCommand_of_scan {command : CommandName} {arguments : List String} {scanned : Scanned}
    (hscan : scan command.spec.options true none {} arguments = .ok scanned)
    (hhelp : scanned.isGiven "help" = false) (hcheck : scanned.check command.spec = .ok ())
    (host : Host) (typed : String) (trace : Trace) :
    (runCommand host command typed arguments).run.run trace =
      (perform host command scanned).run.run trace := by
  rw [runCommand, hscan, run_bind, run_orStop_ok]
  simp only [flag, hhelp, Bool.false_eq_true, if_false, run_bind, hcheck, run_orStop_ok]

/-- The scan of the group stops at the name of a command, so what follows is scanned only once. -/
theorem run_named {command : CommandName} {typed : String} (hoperand : IsOperand typed)
    (hname : CommandName.ofName? typed = some command) (host : Host) (files : FileStore)
    (rest : List String) :
    run host files (typed :: rest) =
      conclude (command.spec.usage typed) (programName ++ " " ++ typed)
        ((runCommand host command typed rest).run.run { files }) := by
  have hscan : scan [help] false none {} (typed :: rest) = .ok { operands := typed :: rest } := by
    have hend : typed ≠ "--" := by
      rintro rfl
      exact hoperand _ _ rfl
    rw [scan, if_neg hend]
    split
    · next letter letters hletters => exact absurd hletters (hoperand letter letters)
    · rfl
  rw [run, hscan]
  dsimp only
  rw [hname]
  rfl

end BootImage.Command
