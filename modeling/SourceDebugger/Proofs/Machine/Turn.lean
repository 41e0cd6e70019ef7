import SourceDebugger.Proofs.Machine.Memory
/-!
One instruction, seen from outside. Each instruction is written out as the function of the machine
that it is. It reports at most one event, and comes to a stop or an end exactly if that event says
so; the sizes of code and stack stay.
-/
namespace SourceDebugger.Machine

open Effect

theorem emit_run (event : Event) (m : Machine) :
    emit event m = (.ok (), { m with pending := m.pending ++ [event] }) := rfl

theorem stopWith_run (event : Event) (m : Machine) :
    stopWith event m = (.ok (), { m with pending := m.pending ++ [event], motion := .stopped }) := by
  rw [stopWith, bind_ok (emit_run event m), modify_run]

theorem exitWith_run (code : Int) (m : Machine) :
    exitWith code m = (.ok (),
      { m with pending := m.pending ++ [.exited code], motion := .exited, threads := [] }) := by
  rw [exitWith, bind_ok (emit_run _ m), modify_run]

/-- A result that only says whether something failed, and the machine afterwards. -/
def outcome {α : Type} (b : Bool) : Except Fault α × Machine → Except Fault Bool × Machine
  | (.ok _, m) => (.ok b, m)
  | (.error e, m) => (.error e, m)

theorem outcome_run {α : Type} (a : Access Machine α) (b : Bool) (m : Machine) :
    (a >>= fun _ => pure b) m = outcome b (a m) := by
  rw [bind_run]
  rcases a m with ⟨_ | _, _⟩ <;> rfl

/-- The instructions, each as the function of the machine that it is. -/
theorem effect_run (next : UInt64) (i : Instr) (m : Machine) :
    effect next i m = match i with
      | .pushFrame => outcome false (push m.registers.fp m)
      | .setFrame =>
        (.ok false, { m with registers := { m.registers with fp := m.registers.sp } })
      | .reserve size =>
        (.ok false, { m with registers := { m.registers with sp := m.registers.sp - size } })
      | .spill index offset size =>
        outcome false (store (m.registers.fp + offset.toUInt64)
          (argumentBytes m index size.toNat) m)
      | .leave => match m.load m.registers.fp 8 with
        | .ok bytes => (.ok false,
            { m with registers := ⟨m.registers.pc, m.registers.fp + 8,
                UInt64.ofNat (Bytes.toNat bytes)⟩ })
        | .error e =>
          (.error e, { m with registers := { m.registers with sp := m.registers.fp } })
      | .ret => match m.load m.registers.sp 8 with
        | .ok bytes =>
          let target := UInt64.ofNat (Bytes.toNat bytes)
          let m := { m with registers := ⟨target, m.registers.sp + 8, m.registers.fp⟩ }
          if target = 0 then
            (.ok true, { m with pending := m.pending ++ [.exited 0], motion := .exited
                                threads := [] })
          else (.ok false, m)
        | .error e => (.error e, m)
      | .nop | .break => (.ok false, m)
      | .call target => match push next m with
        | (.ok (), m) => (.ok false, { m with registers := { m.registers with pc := target } })
        | (.error e, m) => (.error e, m)
      | .setArg index datum =>
        (.ok false, { m with
          heap := m.heap.appendList datum.payload
          arguments := setArgument m.arguments index (datum.slot m.heap.size) })
      | .store offset datum =>
        outcome false (store (m.registers.fp + offset.toUInt64) (datum.slot m.heap.size)
          { m with heap := m.heap.appendList datum.payload })
      | .print text => (.ok false, { m with pending := m.pending ++ [.output text] })
      | .jump target => (.ok false, { m with registers := { m.registers with pc := target } })
      | .spawn thread =>
        (.ok false, { m with threads := m.threads ++ [thread]
                             pending := m.pending ++ [.threadStarted thread] })
      | .endThread thread =>
        (.ok false, { m with threads := m.threads.filter (· ≠ thread)
                             pending := m.pending ++ [.threadEnded thread] })
      | .load index => match m.executable.libraries[index]? with
        | some l => (.ok false, { m with
            pending := m.pending ++ [.moduleLoaded l.path (libraryBase index) l.size] })
        | none => (.ok false, m)
      | .fault signal description =>
        (.ok true, { m with
          pendingSignal := some signal
          pending := m.pending ++ [.signal mainThread signal description], motion := .stopped })
      | .exit code =>
        (.ok true, { m with pending := m.pending ++ [.exited code], motion := .exited
                            threads := [] }) := by
  cases i with
  | pushFrame => rw [effect, bind_ok (get_run m), outcome_run]
  | setFrame => rw [effect, bind_ok (get_run m), bind_ok (setFp_run _ m), pure_run]
  | reserve size => rw [effect, bind_ok (get_run m), bind_ok (setSp_run _ m), pure_run]
  | spill index offset size => rw [effect, bind_ok (get_run m), outcome_run]
  | leave =>
    rw [effect, bind_ok (get_run m), bind_ok (setSp_run _ m), bind_run, pop_run]
    have same : load { m with registers := { m.registers with sp := m.registers.fp } }
        m.registers.fp 8 = m.load m.registers.fp 8 := rfl
    simp only [same]
    cases m.load m.registers.fp 8 <;> rfl
  | ret =>
    rw [effect, bind_run, pop_run]
    cases m.load m.registers.sp 8 with
    | error e => rfl
    | ok bytes =>
      simp only [bind_ok (setPc_run _ _), ite_run, outcome_run, exitWith_run, pure_run, outcome]
  | nop => rfl
  | call target =>
    rw [effect, bind_run]
    rcases push next m with ⟨e | _, n⟩
    · rfl
    · exact bind_ok (setPc_run _ n)
  | setArg index datum => rw [effect, bind_ok (encode_run datum m), outcome_run, modify_run]; rfl
  | store offset datum =>
    rw [effect, bind_ok (encode_run datum m), bind_ok (get_run _), outcome_run]
  | print text => rw [effect, bind_ok (emit_run _ m), pure_run]
  | «break» => rfl
  | jump target => rw [effect, bind_ok (setPc_run _ m), pure_run]
  | spawn thread => rw [effect, bind_ok (modify_run _ m), bind_ok (emit_run _ _), pure_run]
  | endThread thread => rw [effect, bind_ok (modify_run _ m), bind_ok (emit_run _ _), pure_run]
  | load index =>
    rw [effect, bind_ok (get_run m)]
    dsimp only
    cases m.executable.libraries[index]? <;> rfl
  | fault signal description =>
    rw [effect, bind_ok (modify_run _ m), bind_ok (stopWith_run _ _), pure_run]
  | exit code => rw [effect, bind_ok (exitWith_run _ m), pure_run]

/-- The machine at the next instruction. -/
def stepped (m : Machine) (i : Instr) : Machine :=
  { m with registers := { m.registers with pc := m.registers.pc + i.length } }

/-- The machine after a trap. -/
def trapped (m : Machine) : Machine :=
  { m with registers := { m.registers with pc := m.registers.pc + 1 }
           pending := m.pending ++ [.trap mainThread (m.registers.pc + 1) .software]
           motion := .stopped }

/-- The machine after it has found no instruction. -/
def strayed (m : Machine) : Machine :=
  { m with pendingSignal := some segmentationFault
           pending := m.pending ++ [.signal mainThread segmentationFault
             ("Invalid instruction pointer " ++ Text.hexMarked m.registers.pc.toNat)]
           motion := .stopped }

/-- A trap instruction, its own or one laid over it, stands in the way of an instruction. -/
def Blocked (m : Machine) (i : Instr) : Prop :=
  m.code[(m.registers.pc - codeBase).toNat]? = some trapByte ∨ i = .break

instance (m : Machine) (i : Instr) : Decidable (Blocked m i) :=
  inferInstanceAs (Decidable (_ ∨ _))

theorem execute_run (m : Machine) :
    execute m = match m.executable.instrAt? m.registers.pc with
      | none => (.ok true, m.strayed)
      | some i =>
        if Blocked m i then (.ok true, m.trapped)
        else effect (m.registers.pc + i.length) i (m.stepped i) := by
  rw [execute, bind_ok (get_run m)]
  cases m.executable.instrAt? m.registers.pc with
  | none =>
    dsimp only
    rw [bind_ok (modify_run _ m), bind_ok (stopWith_run _ _), pure_run]
    rfl
  | some i =>
    dsimp only
    rw [ite_run, bind_ok (setPc_run _ m), bind_ok (stopWith_run _ _), bind_ok (setPc_run _ m)]
    rfl

/-- An instruction is executed where no trap stands in its way. -/
theorem execute_free {m : Machine} {i : Instr} (found : m.executable.instrAt? m.registers.pc = some i)
    (free : ¬ Blocked m i) : execute m = effect (m.registers.pc + i.length) i (m.stepped i) := by
  rw [execute_run, found]
  exact if_neg free

section Sizes

/-- What an instruction leaves alone, whether or not it succeeds. -/
structure Onward (x y : Machine) : Prop where
  executable : y.executable = x.executable
  code : y.code.size = x.code.size
  stack : y.stack.size = x.stack.size
  heap : x.heap.size ≤ y.heap.size
  interrupt : y.interruptRequested = x.interruptRequested

theorem Onward.refl (x : Machine) : Onward x x := ⟨rfl, rfl, rfl, Nat.le_refl _, rfl⟩

theorem Onward.trans {x y z : Machine} (first : Onward x y) (second : Onward y z) : Onward x z :=
  ⟨second.executable.trans first.executable, second.code.trans first.code,
    second.stack.trans first.stack, Nat.le_trans first.heap second.heap,
    second.interrupt.trans first.interrupt⟩

theorem onward_store (address : UInt64) (bytes : Bytes) (m : Machine) :
    Onward m (store address bytes m).2 := by
  rw [store_run]
  rcases m.locate address bytes.length with e | ⟨r, offset⟩
  · exact .refl m
  · cases r <;> exact ⟨rfl, by simp [write], by simp [write], by simp [write], rfl⟩

theorem onward_push (word : UInt64) (m : Machine) : Onward m (push word m).2 := by
  rw [push_run]
  refine Onward.trans ?_ (onward_store (m.registers.sp - 8) _ _)
  exact ⟨rfl, rfl, rfl, Nat.le_refl _, rfl⟩

theorem outcome_snd {α : Type} (b : Bool) (r : Except Fault α × Machine) :
    (outcome b r).2 = r.2 := by
  rcases r with ⟨_ | _, _⟩ <;> rfl

theorem onward_effect (next : UInt64) (i : Instr) (m : Machine) : Onward m (effect next i m).2 := by
  rw [effect_run]
  cases i with
  | pushFrame => dsimp only; rw [outcome_snd]; exact onward_push m.registers.fp m
  | spill index offset size => dsimp only; rw [outcome_snd]; exact onward_store _ _ m
  | leave => dsimp only; split <;> exact ⟨rfl, rfl, rfl, Nat.le_refl _, rfl⟩
  | ret =>
    dsimp only
    split
    · split <;> exact ⟨rfl, rfl, rfl, Nat.le_refl _, rfl⟩
    · exact .refl m
  | call target =>
    have pushed := onward_push next m
    dsimp only
    split
    · rename_i h
      rw [h] at pushed
      exact pushed.trans ⟨rfl, rfl, rfl, Nat.le_refl _, rfl⟩
    · rename_i h
      rwa [h] at pushed
  | setArg index datum => exact ⟨rfl, rfl, rfl, by simp, rfl⟩
  | store offset datum =>
    dsimp only
    rw [outcome_snd]
    refine Onward.trans ?_ (onward_store (m.registers.fp + offset.toUInt64) _ _)
    exact ⟨rfl, rfl, rfl, by simp, rfl⟩
  | load index => dsimp only; split <;> exact ⟨rfl, rfl, rfl, Nat.le_refl _, rfl⟩
  | setFrame | reserve | nop | print | «break» | jump | spawn | endThread | fault | exit =>
    exact ⟨rfl, rfl, rfl, Nat.le_refl _, rfl⟩

theorem onward_execute (m : Machine) : Onward m (execute m).2 := by
  rw [execute_run]
  split
  · exact ⟨rfl, rfl, rfl, Nat.le_refl _, rfl⟩
  · split
    · exact ⟨rfl, rfl, rfl, Nat.le_refl _, rfl⟩
    · refine Onward.trans ?_ (onward_effect _ _ _)
      exact ⟨rfl, rfl, rfl, Nat.le_refl _, rfl⟩

/-- A stretch stays where it is as memory grows. -/
theorem locate_onward {x y : Machine} (onward : Onward x y) {a : UInt64} {n : Nat}
    {s : Region × Nat} (located : x.locate a n = .ok s) : y.locate a n = .ok s := by
  have code : Holds y a n .code ↔ Holds x a n .code := by
    simp only [Holds, region, onward.code]
  have stack : Holds y a n .stack ↔ Holds x a n .stack := by
    simp only [Holds, region, onward.stack]
  have heap : Holds x a n .heap → Holds y a n .heap := by
    have grown := onward.heap
    simp only [Holds, region]
    omega
  rw [locate_run] at located ⊢
  simp only [code, stack]
  split at located
  · cases located
  · rename_i fits
    rw [if_neg fits]
    split at located
    · rename_i here
      rw [if_pos here]
      exact located
    · rename_i away
      rw [if_neg away]
      split at located
      · rename_i here
        rw [if_pos here]
        exact located
      · rename_i apart
        rw [if_neg apart]
        split at located
        · rename_i here
          rw [if_pos (heap here)]
          exact located
        · cases located

end Sizes

section Reports

/-- What a program reports without a stop. The modules are its own code and its libraries. -/
inductive Notice (p : Executable) : Event → Prop
  | threadStarted (thread : ThreadId) : Notice p (.threadStarted thread)
  | threadEnded (thread : ThreadId) : Notice p (.threadEnded thread)
  | output (text : String) : Notice p (.output text)
  | program : Notice p (.moduleLoaded p.path codeBase (UInt64.ofNat p.code.size))
  | library (index : Nat) (l : Library) : p.libraries[index]? = some l →
      Notice p (.moduleLoaded l.path (libraryBase index) l.size)

theorem Notice.not_stop {p : Executable} {e : Event} (notice : Notice p e) :
    e.isStop = false ∧ e.isExit = false := by cases notice <;> exact ⟨rfl, rfl⟩

/-- What one executed instruction has reported, if it was no trap. -/
inductive Report (x y : Machine) : Bool → Prop
  | nothing : y.pending = x.pending → y.motion = x.motion → Report x y false
  | notice (e : Event) : Notice x.executable e → y.pending = x.pending ++ [e] →
      y.motion = x.motion → Report x y false
  | signal (number : Int) (description : String) :
      y.pending = x.pending ++ [.signal mainThread number description] →
      y.pendingSignal = some number → y.motion = .stopped → Report x y true
  | exit (code : Int) : y.pending = x.pending ++ [.exited code] → y.motion = .exited →
      Report x y true

theorem report_of_store {address : UInt64} {bytes : Bytes} {m n k : Machine} {b : Bool}
    (done : outcome false (store address bytes n) = (.ok b, k))
    (pending : n.pending = m.pending) (motion : n.motion = m.motion) : Report m k b := by
  rw [store_run, outcome.eq_def] at done
  split at done
  · rename_i h
    split at h
    · cases h; cases done; exact .nothing (by simp [pending]) (by simp [motion])
    · cases h
  · cases done

theorem effect_report {next : UInt64} {i : Instr} {m n : Machine} {b : Bool}
    (done : effect next i m = (.ok b, n)) : Report m n b := by
  rw [effect_run] at done
  cases i with
  | pushFrame => dsimp only at done; rw [push_run] at done; exact report_of_store done rfl rfl
  | spill index offset size => exact report_of_store done rfl rfl
  | leave =>
    dsimp only at done
    split at done
    · cases done; exact .nothing rfl rfl
    · cases done
  | ret =>
    dsimp only at done
    split at done
    · split at done
      · cases done; exact .exit 0 rfl rfl
      · cases done; exact .nothing rfl rfl
    · cases done
  | call target =>
    dsimp only at done
    split at done
    · rename_i h
      rw [push_run, store_run] at h
      split at h
      · cases h; cases done; exact .nothing (by simp) (by simp)
      · cases h
    · cases done
  | store offset datum => exact report_of_store done rfl rfl
  | load index =>
    dsimp only at done
    split at done
    · rename_i l known
      cases done; exact .notice _ (.library index l known) rfl rfl
    · cases done; exact .nothing rfl rfl
  | print text => cases done; exact .notice _ (.output text) rfl rfl
  | spawn thread => cases done; exact .notice _ (.threadStarted thread) rfl rfl
  | endThread thread => cases done; exact .notice _ (.threadEnded thread) rfl rfl
  | fault signal description => cases done; exact .signal signal description rfl rfl rfl
  | exit code => cases done; exact .exit code rfl rfl
  | setFrame | reserve | nop | setArg | «break» | jump => cases done; exact .nothing rfl rfl

theorem Report.before {m n k : Machine} {b : Bool} (report : Report n k b)
    (executable : n.executable = m.executable) (pending : n.pending = m.pending)
    (motion : n.motion = m.motion) : Report m k b := by
  cases report with
  | nothing h₁ h₂ => exact .nothing (h₁.trans pending) (h₂.trans motion)
  | notice e h₁ h₂ h₃ => exact .notice e (executable ▸ h₁) (pending ▸ h₂) (h₃.trans motion)
  | signal number description h₁ h₂ h₃ => exact .signal number description (pending ▸ h₁) h₂ h₃
  | exit code h₁ h₂ => exact .exit code (pending ▸ h₁) h₂

/-- What executing an instruction comes to: a trap, or a report. -/
theorem execute_report {m n : Machine} {b : Bool} (done : execute m = (.ok b, n)) :
    b = true ∧ n = m.trapped ∨ Report m n b := by
  rw [execute_run] at done
  split at done
  · cases done
    exact .inr (.signal segmentationFault _ rfl rfl rfl)
  · split at done
    · cases done
      exact .inl ⟨rfl, rfl⟩
    · exact .inr ((effect_report done).before rfl rfl rfl)

end Reports

end SourceDebugger.Machine
