import Mathlib.Data.List.Induction
import SourceDebugger.Proofs.Breakpoint.Scripted
import SourceDebugger.Proofs.Session.Placement
/-!
Breakpoints are added and modules loaded in any order, while the session does whatever else it is asked
for. What has become of the breakpoints in the end depends on what was added and what was loaded only.
-/
namespace SourceDebugger.Session

open Effect Event

variable {δ : Type} [Debuggee δ] {can : UInt64 → Bool} {fit : δ → Prop} {s t : Session (Overheard δ)}

section Labels

/-- Only requests about breakpoints change which there are. -/
theorem labels_endures (dependable : Dependable can fit) :
    Endures (Undisturbed can fit (labels (δ := Overheard δ))) where
  toBides := undisturbed_bides labels_aloof dependable
  poll millis s := by
    cases present : s.debuggee with
    | none =>
      obtain ⟨_, _, _, _, _, _, _, _, _, _, _, _⟩ := s
      cases present
      exact undisturbed_onwards.refl _
    | some d =>
      rw [access_run present]
      refine fun sure => ⟨rfl, ⟨sure.launches, ?_, sure.can⟩, rfl⟩
      rintro _ ⟨⟩
      exact dependable.poll millis d.debuggee (sure.fit d present)
  notice e := by
    cases e with
    | moduleLoaded path base size =>
      intro s sure
      cases present : s.debuggee with
      | none =>
        obtain ⟨_, _, _, _, _, _, _, _, _, _, _, _⟩ := s
        cases present
        exact ⟨rfl, ⟨sure.launches, fun _ same => (by cases same), sure.can⟩, rfl⟩
      | some d =>
        obtain ⟨d', traps, _, run, after⟩ := load_sure dependable sure present path base size
        rw [notice, run]
        refine ⟨rfl, after, ?_⟩
        show ((s.breakpoints.items.map _).map _ : List (BreakpointId × Location × Bool)) = _
        rw [List.map_map]
        exact List.map_congr_left fun b _ => by
          simp only [Function.comp, Breakpoint.seek]
          split <;> rfl
    | moduleUnloaded base =>
      intro s sure
      rw [notice, unloadModule, modify_run]
      dsimp only
      cases s.roster.moduleBased? base with
      | none => exact undisturbed_onwards.refl s sure
      | some m =>
        refine ⟨rfl, ⟨sure.launches, sure.fit, fun a there =>
          sure.can a (Traps.contains_of_forget there)⟩, ?_⟩
        exact map_unbind (fun _ => rfl) _ _
    | threadStarted | threadEnded | output => exact fun s => undisturbed_aside rfl rfl rfl rfl
    | trap | signal | exited => exact fun s => undisturbed_onwards.refl s
  exit s code fault sure := by
    refine ⟨?_, exit_sure sure code fault, ?_⟩
    · rw [exit]
      cases s.output.flush <;> rfl
    · rw [exit]
      cases s.output.flush <;> exact map_unbind (fun _ => rfl) _ _
  interrupt := access_undisturbed labels_aloof (fun _ => rfl) (Overheard.dependable dependable).interrupt
  kill := access_undisturbed labels_aloof (fun _ => rfl) (Overheard.dependable dependable).terminate
  counted s := undisturbed_aside rfl rfl rfl rfl
  attach s n request d launched sure := by
    refine ⟨rfl, ⟨sure.launches, ?_, sure.can⟩, rfl⟩
    rintro _ ⟨⟩
    exact (sure.launches n request d launched).1

end Labels

section Requests

omit [Debuggee δ] in
theorem fail_exited (s : Session δ) (fault : Fault) : (s.fail fault).state.isExited = true := by
  rw [fail]
  split
  · assumption
  · rw [exit_state]
    rfl

/-- The breakpoints are settled between two requests. -/
def Tended (can : UInt64 → Bool) (s : Session (Overheard δ)) : Prop :=
  s.outlook.Settled can s.host.symbols []

omit [Debuggee δ] in
/-- What fails, ends the run; what is carried out, has settled the breakpoints. -/
theorem guarded_tended {α : Type} {a : Change (Overheard δ) α}
    (done : ∀ x t, a s = (.ok x, t) → Thrives can fit [] t) (orderly : (guarded a s).2.Orderly) :
    Tended can (guarded a s).2 := by
  rw [guarded] at orderly ⊢
  rcases run : a s with ⟨e | x, t⟩ <;> rw [run] at orderly
  · exact settled_exited orderly (fail_exited t e)
  · exact (done x t run).settled

theorem pump_tended (dependable : Dependable can fit) (thrives : Thrives can fit [] s)
    (orderly : s.Orderly) (millis : Nat) : Tended can (pump millis s).2 := by
  have after := (pump_goes orderly millis).2
  have seen := thrives.look dependable millis
  have hushed := access_hushed (Debuggee.poll millis : Access (Overheard δ) (Option Event)) s
  rw [pump_run] at after ⊢
  split at after
  · rename_i running
    rw [if_pos running]
    have attached : s.debuggee.isSome = true := by rw [orderly.attached, running]; rfl
    rcases looked : access (Debuggee.poll millis) s with ⟨e | _ | event, t⟩ <;>
      rw [looked] at after seen hushed
    · exact settled_exited after (fail_exited t e)
    · exact seen.settled
    · have is_open : t.Open (.handle event) :=
        ⟨hushed.attached.trans attached, .inl (hushed.state.trans running)⟩
      dsimp only at after ⊢
      rcases settled : settle (.handle event) t with ⟨e | _, u⟩ <;> rw [settled] at after
      · exact settled_exited after (fail_exited u e)
      · exact (settle_thrives dependable is_open seen settled).settled
  · rename_i quiet
    rw [if_neg quiet]
    exact thrives.settled

theorem runFromEntry_thrives (dependable : Dependable can fit) (most : Nat)
    (thrives : Thrives can fit [] s) (attached : s.debuggee.isSome = true) (running : s.state = .running)
    (done : runFromEntry most s = (.ok (), t)) : Thrives can fit [] t := by
  have bides := undisturbed_bides outlook_aloof dependable
  induction most generalizing s with
  | zero => cases done
  | succ most ih =>
    have seen := thrives.look dependable 0
    have hushed := access_hushed (Debuggee.poll 0 : Access (Overheard δ) (Option Event)) s
    rw [runFromEntry, bind_run] at done
    rcases looked : access (Debuggee.poll 0) s with ⟨e | _ | event, u⟩ <;>
      rw [looked] at done seen hushed
    · cases done
    · have kept := bides.resume .continue u
      dsimp only at done
      rw [done] at kept
      exact seen.undisturbed kept
    · have is_open : u.Open (.handle event) :=
        ⟨hushed.attached.trans attached, .inl (hushed.state.trans running)⟩
      have driven := settle_goes is_open
      dsimp only at done
      rw [bind_run] at done
      rcases settled : settle (.handle event) u with ⟨e | _, v⟩ <;> rw [settled] at done driven
      · cases done
      · have after := settle_thrives dependable is_open seen settled
        dsimp only at done
        rw [bind_ok (get_run v), ite_run] at done
        split at done
        · cases done
          exact after
        · rename_i going
          have on : v.state = .running := by simp at going; exact going.2
          exact ih after (by rw [driven.2.attached, on]; rfl) on done

/-- A new process has nothing loaded yet, and no breakpoint is anywhere. -/
theorem attach_thrives (thrives : Thrives can fit [] s) (gone : s.debuggee = none)
    {request : LaunchRequest} {n : Nat} {d : Overheard δ} (launched : s.host.launch n request = .ok d) :
    Thrives can fit [] (s.attach d request) := by
  obtain ⟨is_fit, silent⟩ := thrives.sure.launches n request d launched
  have nobody : s.outlook.told = none := by rw [outlook, gone]; rfl
  refine ⟨⟨thrives.sure.launches, ?_, thrives.sure.can⟩, ?_, ?_, ?_, fun gone => by cases gone⟩
  · rintro _ ⟨⟩
    exact is_fit
  · rintro _ ⟨⟩ _
    exact congrArg (LoadedModule.among s.host.symbols) silent
  · rintro _ ⟨⟩ e member
    cases member
  · rintro _ ⟨⟩ _ p member registered
    exact thrives.settled.ended nobody p member registered

theorem start_tended (dependable : Dependable can fit) (thrives : Thrives can fit [] s)
    (orderly : s.Orderly) (request : LaunchRequest) : Tended can (start request s).2 := by
  have after := (respond_lawful orderly (.start request)).orderly
  change (start request s).2.Orderly at after
  cases live : s.state.isLive with
  | true =>
    rw [start_refused live]
    exact thrives.settled
  | false =>
    have gone : s.debuggee = none := by
      have attached := orderly.attached
      rw [live] at attached
      simpa using attached
    rw [start_run live] at after ⊢
    have counted : Thrives can fit [] { s with launches := s.launches + 1 } :=
      thrives.undisturbed (undisturbed_aside rfl rfl rfl rfl)
    cases launched : s.host.launch s.launches request with
    | error e => exact thrives.settled
    | ok d =>
      rw [launched] at after
      have begun := attach_thrives counted gone launched
      exact guarded_tended
        (fun _ t done => runFromEntry_thrives dependable patience begun rfl rfl done) after

omit [Debuggee δ] in
/-- A request for a paused session leaves any other as it is. -/
theorem paused_tended (thrives : Thrives can fit [] s) (orderly : s.Orderly) (operation : Operation)
    {request : ThreadId → Request (Overheard δ) Unit}
    (does : ∀ reason thread, s.state = .paused reason thread → s.Active →
      s.roster.current = some thread → Tended can (request thread s).2) :
    Tended can ((requirePaused operation >>= request) s).2 := by
  rw [bind_run, requirePaused_run]
  cases state : s.state with
  | paused reason thread =>
    refine does reason thread state ⟨?_, by rw [state]; rfl⟩ (orderly.paused reason thread state).2
    rw [orderly.attached, state]
    rfl
  | notStarted | running | exited => exact thrives.settled

theorem continue_tended (dependable : Dependable can fit) (thrives : Thrives can fit [] s)
    (orderly : s.Orderly) : Tended can (continueExecution s).2 := by
  refine paused_tended thrives orderly _ fun reason thread state active current => ?_
  have is_open : s.Open (.resume thread .continue) :=
    ⟨active.attached, .inr ⟨reason, thread, state, current, rfl⟩⟩
  refine guarded_tended (fun _ t done =>
    settle_thrives dependable is_open thrives done) ?_
  have answers := guarded_answers (settle_goes is_open)
  rcases run : guarded (settle (.resume thread .continue)) s with ⟨_ | _, _⟩ <;> rw [run] at answers
  · exact answers.2.1
  · exact answers.2

theorem beginStep_thrives (dependable : Dependable can fit) (thrives : Thrives can fit [] s)
    {reason : PauseReason} {thread : ThreadId} (kind : StepKind) (active : s.Active)
    (state : s.state = .paused reason thread) (current : s.roster.current = some thread)
    (done : beginStep kind thread s = (.ok (), t)) : Thrives can fit [] t := by
  have onwards : Onwards (Undisturbed can fit (outlook (δ := δ))) := undisturbed_onwards
  have read := registers_keeps onwards thread s
  have hushed := ask_hushed (fun _ d => Debuggee.registers d thread) s
  change Hushed s (registers thread s).2 at hushed
  rw [beginStep, bind_run] at done
  rcases run : registers thread s with ⟨e | regs, u⟩ <;> rw [run] at done read hushed
  · cases done
  · have found := ask_keeps onwards
      (fun s d => .ok (CallStack.canonicalAddress s.traps d s.roster regs)) u
    have framed := ask_hushed
      (fun s d => .ok (CallStack.canonicalAddress s.traps d s.roster regs)) u
    change Undisturbed can fit outlook u (frameAddress regs u).2 at found
    change Hushed u (frameAddress regs u).2 at framed
    dsimp only at done
    rw [bind_run] at done
    rcases run : frameAddress regs u with ⟨e | frame, v⟩ <;> rw [run] at done found framed
    · cases done
    · dsimp only at done
      rw [bind_ok (modify_run _ v)] at done
      have begun : Hushed s { v with
          stepper := some (.start kind thread (v.roster.lineAt? regs.pc) frame) } :=
        (hushed.trans framed).trans ⟨rfl, rfl, rfl⟩
      have after := (thrives.undisturbed read).undisturbed found
      have aimed : Thrives can fit [] { v with
          stepper := some (.start kind thread (v.roster.lineAt? regs.pc) frame) } :=
        after.undisturbed (undisturbed_aside rfl rfl rfl rfl)
      refine settle_thrives dependable ⟨begun.attached.trans active.attached, .inr ⟨reason, thread,
        begun.state.trans state, ?_, ?_⟩⟩ ?_ done
      · rw [begun.roster]
        exact current
      · split <;> rfl
      · split <;> exact aimed

theorem step_tended (dependable : Dependable can fit) (thrives : Thrives can fit [] s)
    (orderly : s.Orderly) (kind : StepKind) : Tended can (step kind s).2 := by
  refine paused_tended thrives orderly _ fun reason thread state active current => ?_
  refine guarded_tended (fun _ t done =>
    beginStep_thrives dependable thrives kind active state current done) ?_
  have answers := guarded_answers (beginStep_goes kind state active current)
  rcases run : guarded (beginStep kind thread) s with ⟨_ | _, _⟩ <;> rw [run] at answers
  · exact answers.2.1
  · exact answers.2

theorem break_tended (dependable : Dependable can fit) (thrives : Thrives can fit [] s)
    (orderly : s.Orderly) : Tended can (breakExecution s).2 := by
  have after := (respond_lawful orderly .break).orderly
  change (breakExecution s).2.Orderly at after
  rw [breakExecution, bind_ok (get_run s), ite_run] at after ⊢
  split at after
  · rename_i running
    rw [if_pos running]
    have mum : Keeps Overheard.Mum (Debuggee.interrupt : Access (Overheard δ) Unit) := fun _ => rfl
    have kept : Undisturbed can fit outlook s (access Debuggee.interrupt s).2 :=
      access_undisturbed outlook_aloof mum (Overheard.dependable dependable).interrupt s
    have interrupted (_ : Unit) (t : Session (Overheard δ))
        (done : access Debuggee.interrupt s = (.ok (), t)) : Thrives can fit [] t := by
      rw [done] at kept
      exact thrives.undisturbed kept
    exact guarded_tended interrupted after
  · rename_i still
    rw [if_neg still, refuse, bind_ok (get_run s)]
    exact thrives.settled

/-- Nothing outlasts a termination. -/
theorem terminate_tended (thrives : Thrives can fit [] s) (orderly : s.Orderly) :
    Tended can (terminate s).2 := by
  cases live : s.state.isLive with
  | false =>
    rw [terminate_refused live]
    exact thrives.settled
  | true =>
    have active : s.Active := ⟨by rw [orderly.attached, live], live⟩
    obtain ⟨⟨_, after, exited⟩, _⟩ := terminate_over active
    exact settled_exited after exited

end Requests

section Breakpoints

omit [Debuggee δ] in
/-- A new breakpoint is looked for in all modules there are. -/
theorem Outlook.Settled.add {symbols : String → Option ModuleSymbols} {told : List Event} {c : Outlook}
    (settled : c.Settled can symbols []) (present : c.told = some told) (location : Location) :
    Outlook.Settled can symbols []
      { c with places := (c.places ++ [(⟨location, true, none⟩ : Place)]).map (·.seek can c.modules) } where
  modules := settled.modules
  heard := settled.heard
  places := by
    intro told' heard gathers p member registered
    obtain ⟨q, before, rfl⟩ := List.mem_map.mp member
    cases known : q.registered with
    | false =>
      rw [Place.seek, known] at registered
      exact absurd (known.symm.trans registered) Bool.false_ne_true
    | true =>
      rw [Place.seek, if_pos known]
      rcases List.mem_append.mp before with old | new
      · show q.binding.or (Breakpoint.place? can c.modules q.location) = _
        rw [settled.places told' heard gathers q old known, Option.or_self]
      · cases List.mem_singleton.mp new
        rfl
  ended gone := by cases present.symm.trans gone

theorem add_thrives (dependable : Dependable can fit) (thrives : Thrives can fit [] s)
    (location : Location) :
    Thrives can fit [] (addBreakpoint location s).2 ∧ (addBreakpoint location s).2.host = s.host ∧
      labels (addBreakpoint location s).2 = labels s ++ [(s.breakpoints.nextId, location, true)] := by
  have added : labels { s with breakpoints := (s.breakpoints.add location).2 } =
      labels s ++ [(s.breakpoints.nextId, location, true)] := by
    simp [labels, Breakpoints.add]
  cases attached : s.debuggee with
  | none =>
    have run : (addBreakpoint location s).2 = { s with breakpoints := (s.breakpoints.add location).2 } :=
      bindAll_detached (s := { s with breakpoints := (s.breakpoints.add location).2 }) attached
    have nobody : s.outlook.told = none := by rw [outlook, attached]; rfl
    rw [run]
    refine ⟨⟨⟨thrives.sure.launches, thrives.sure.fit, thrives.sure.can⟩, thrives.settled.modules,
      thrives.settled.heard, fun told heard => ?_, fun _ p member registered => ?_⟩, rfl, added⟩
    · cases nobody.symm.trans heard
    · obtain ⟨b, inside, rfl⟩ := List.mem_map.mp member
      rcases List.mem_append.mp inside with old | new
      · exact thrives.settled.ended nobody (place b) (List.mem_map_of_mem old) registered
      · cases List.mem_singleton.mp new
        rfl
  | some d =>
    obtain ⟨d', traps, mum, run, sure⟩ := bindAll_sure
      (s := { s with breakpoints := (s.breakpoints.add location).2 }) dependable
      ⟨thrives.sure.launches, thrives.sure.fit, thrives.sure.can⟩ attached
    change (addBreakpoint location s).2 = _ at run
    have present : s.outlook.told = some d.told := by rw [outlook, attached]; rfl
    have after := thrives.settled.add present location
    have same : (s.outlook.places ++ [(⟨location, true, none⟩ : Place)]).map (·.seek can s.outlook.modules) =
        ((s.breakpoints.add location).2.items.map (·.seek can s.roster.modules)).map place := by
      have new : s.outlook.places ++ [⟨location, true, none⟩] =
          (s.breakpoints.add location).2.items.map place := by simp [outlook, Breakpoints.add, place]
      rw [new, List.map_map, List.map_map]
      exact List.map_congr_left fun b _ => (place_seek b).symm
    rw [run]
    refine ⟨⟨sure, ?_⟩, rfl, ?_⟩
    · rw [same, present, ← mum] at after
      exact after
    · rw [← added]
      show ((_ : List Breakpoint).map _).map _ = _
      rw [List.map_map]
      exact List.map_congr_left fun b _ => by
        simp only [Function.comp, Breakpoint.seek]
        split <;> rfl

omit [Debuggee δ] in
/-- Breakpoints that count as before are where they were. -/
theorem Thrives.fewer {bs : Breakpoints} {g : Breakpoint → Breakpoint}
    (thrives : Thrives can fit [] s) (items : bs.items = s.breakpoints.items.map g)
    (kept : ∀ b ∈ s.breakpoints.items, (g b).registered = true → place (g b) = place b) :
    Thrives can fit [] { s with breakpoints := bs } := by
  have same : ∀ p ∈ bs.items.map place, p.registered = true → p ∈ s.outlook.places := by
    intro p member registered
    rw [items, List.map_map] at member
    obtain ⟨b, before, rfl⟩ := List.mem_map.mp member
    rw [Function.comp, kept b before registered]
    exact List.mem_map_of_mem before
  refine ⟨⟨thrives.sure.launches, thrives.sure.fit, thrives.sure.can⟩, thrives.settled.modules,
    thrives.settled.heard, fun told heard gathers p member registered => ?_,
    fun gone p member registered => ?_⟩
  · exact thrives.settled.places told heard gathers p (same p member registered) registered
  · exact thrives.settled.ended gone p (same p member registered) registered

omit [Debuggee δ] in
theorem unlisted_thrives (thrives : Thrives can fit [] s) (id : BreakpointId) :
    Thrives can fit [] (s.unlisted id) := by
  refine thrives.fewer rfl fun b _ registered => ?_
  split
  · rename_i here
    rw [if_pos here] at registered
    cases registered
  · rfl

omit [Debuggee δ] in
/-- A breakpoint that is no longer registered may as well be unbound. -/
theorem unbound_thrives {id : BreakpointId} (thrives : Thrives can fit [] t)
    (same : t.breakpoints = (s.unlisted id).breakpoints) :
    Thrives can fit [] { t with breakpoints := t.breakpoints.update id (·.unbound) } := by
  refine thrives.fewer rfl fun b member registered => ?_
  split
  · rename_i here
    rw [if_pos here] at registered
    rw [same] at member
    obtain ⟨c, _, rfl⟩ := List.mem_map.mp member
    split at here
    · rename_i there
      rw [if_pos there] at registered
      cases registered
    · rename_i other
      exact absurd here other
  · rfl

omit [Debuggee δ] in
theorem labels_unbound {id : BreakpointId} (t : Session (Overheard δ)) :
    labels { t with breakpoints := t.breakpoints.update id (·.unbound) } = labels t := by
  show ((t.breakpoints.items.map _).map _ : List (BreakpointId × Location × Bool)) = _
  rw [List.map_map]
  refine List.map_congr_left fun b _ => ?_
  dsimp only [Function.comp]
  split <;> rfl

/-- Breakpoints other than the one that is removed are where they were, whether or not its trap can be
taken out. -/
theorem remove_thrives (dependable : Dependable can fit) (thrives : Thrives can fit [] s)
    (id : BreakpointId) :
    Thrives can fit [] (removeBreakpoint id s).2 ∧ (removeBreakpoint id s).2.host = s.host ∧
      (labels (removeBreakpoint id s).2 = labels s ∨
        labels (removeBreakpoint id s).2 = labels (s.unlisted id)) := by
  cases found : s.breakpoints.registered? id with
  | none =>
    rw [removeBreakpoint, bind_ok (get_run s), found]
    exact ⟨thrives, rfl, .inl rfl⟩
  | some b =>
    have unlisted := unlisted_thrives thrives id
    by_cases placed : b.address? = none ∨ s.debuggee = none
    · rw [remove_unplaced found placed]
      exact ⟨unbound_thrives unlisted rfl, rfl, .inr (labels_unbound (s.unlisted id))⟩
    · obtain ⟨bound, attached⟩ := not_or.mp placed
      obtain ⟨address, bound⟩ := Option.ne_none_iff_exists'.mp bound
      obtain ⟨d, attached⟩ := Option.ne_none_iff_exists'.mp attached
      have released := instrumented_undisturbed outlook_aloof
        (Instrumented.removeUser_keeps Overheard.mum_onwards Overheard.write_mum address id)
        (Instrumented.removeUser_stays (Overheard.dependable dependable) address id) (s.unlisted id)
      have after := unlisted.undisturbed released
      rw [remove_bound found bound (by rw [attached]; rfl), removeBreakpoint.releaseTrap]
      have run := instrumented_run (s := s.unlisted id) attached
        (Instrumented.removeUser address id : Access (Instrumented (Overheard δ)) Unit)
      rcases done : instrumented (Instrumented.removeUser address id) (s.unlisted id) with ⟨e | _, t⟩ <;>
        rw [done] at after run
      · cases (Prod.mk.inj run).2
        exact ⟨after, rfl, .inr rfl⟩
      · cases (Prod.mk.inj run).2
        exact ⟨unbound_thrives after rfl, rfl, .inr (labels_unbound _)⟩

omit [Debuggee δ] in
/-- Whether they are enabled does not show in where breakpoints are. -/
theorem setEnabled_thrives (thrives : Thrives can fit [] s) (id : BreakpointId) (enabled : Bool) :
    Thrives can fit [] (s.setEnabled id enabled) ∧ labels (s.setEnabled id enabled) = labels s := by
  refine ⟨thrives.fewer rfl fun b _ _ => ?_, ?_⟩
  · split <;> rfl
  · show ((s.breakpoints.items.map _).map _ : List (BreakpointId × Location × Bool)) = _
    rw [List.map_map]
    refine List.map_congr_left fun b _ => ?_
    dsimp only [Function.comp]
    split <;> rfl

end Breakpoints

section Runs

/-- The locations for which breakpoints are added. -/
def additions (actions : List Action) : List Location := actions.filterMap fun
  | .add location => some location
  | _ => none

theorem additions_append (actions more : List Action) :
    additions (actions ++ more) = additions actions ++ additions more := List.filterMap_append

/-- What is known of a session from what it was asked for. -/
structure Ledger (can : UInt64 → Bool) (fit : δ → Prop) (host : Host (Overheard δ))
    (actions : List Action) (s : Session (Overheard δ)) : Prop where
  host : s.host = host
  orderly : s.Orderly
  thrives : Thrives can fit [] s
  added : (labels s).map (·.2.1) = additions actions
  removed : ∀ id location, (id, location, false) ∈ labels s → .remove id ∈ actions

variable {host : Host (Overheard δ)} {actions : List Action}

omit [Debuggee δ] in
theorem new_ledger (launches : ∀ n request d, host.launch n request = .ok d →
    fit d.debuggee ∧ d.told = []) : Ledger can fit host [] (new host) where
  host := rfl
  orderly := new_orderly host
  thrives := by
    refine ⟨⟨launches, fun _ same => (by cases same), fun a there => ?_⟩, fun _ same => (by cases same),
      fun _ same => (by cases same), fun _ same => (by cases same), fun _ p member => (by cases member)⟩
    rw [new, Traps.contains_empty rfl] at there
    cases there
  added := rfl
  removed _ _ member := by cases member

/-- One more request. -/
theorem Ledger.perform (dependable : Dependable can fit) (ledger : Ledger can fit host actions s)
    (action : Action) : Ledger can fit host (actions ++ [action]) (s.perform action) := by
  have orderly := (respond_lawful ledger.orderly action).orderly
  have others (other : additions [action] = []) (host' : (s.perform action).host = s.host)
      (thrives : Thrives can fit [] (s.perform action)) (same : labels (s.perform action) = labels s) :
      Ledger can fit host (actions ++ [action]) (s.perform action) := by
    refine ⟨host'.trans ledger.host, orderly, thrives, ?_, fun id location member => ?_⟩
    · rw [same, ledger.added, additions_append, other, List.append_nil]
    · rw [same] at member
      exact List.mem_append_left _ (ledger.removed id location member)
  have asides (other : additions [action] = [])
      (add : ∀ location, action ≠ .add location) (remove : ∀ id, action ≠ .remove id)
      (setEnabled : ∀ id enabled, action ≠ .setEnabled id enabled)
      (tended : Tended can (s.perform action)) :
      Ledger can fit host (actions ++ [action]) (s.perform action) := by
    have kept : Undisturbed can fit labels s (s.perform action) := (labels_endures dependable).perform
      (fun location is => absurd is (add location)) (fun id is => absurd is (remove id))
      (fun id enabled is => absurd is (setEnabled id enabled))
    obtain ⟨host', sure, same⟩ := kept ledger.thrives.sure
    exact others other host' ⟨sure, tended⟩ same
  cases action with
  | start request =>
    exact asides rfl (by simp) (by simp) (by simp)
      (start_tended dependable ledger.thrives ledger.orderly request)
  | pump millis =>
    exact asides rfl (by simp) (by simp) (by simp)
      (pump_tended dependable ledger.thrives ledger.orderly millis)
  | «continue» =>
    exact asides rfl (by simp) (by simp) (by simp)
      (continue_tended dependable ledger.thrives ledger.orderly)
  | step kind =>
    exact asides rfl (by simp) (by simp) (by simp)
      (step_tended dependable ledger.thrives ledger.orderly kind)
  | «break» =>
    exact asides rfl (by simp) (by simp) (by simp) (break_tended dependable ledger.thrives ledger.orderly)
  | terminate =>
    exact asides rfl (by simp) (by simp) (by simp) (terminate_tended ledger.thrives ledger.orderly)
  | add location =>
    obtain ⟨thrives, host', labels'⟩ := add_thrives dependable ledger.thrives location
    refine ⟨host'.trans ledger.host, orderly, thrives, ?_, fun id l member => ?_⟩
    · show (labels (addBreakpoint location s).2).map _ = _
      rw [labels', List.map_append, ledger.added, additions_append]
      rfl
    · change (id, l, false) ∈ labels (addBreakpoint location s).2 at member
      rw [labels'] at member
      rcases List.mem_append.mp member with old | new
      · exact List.mem_append_left _ (ledger.removed id l old)
      · simp at new
  | remove id =>
    obtain ⟨thrives, host', labels'⟩ := remove_thrives dependable ledger.thrives id
    rcases labels' with same | same
    · exact others rfl host' thrives same
    · change labels (s.perform (.remove id)) = _ at same
      have was : ∀ l ∈ labels (s.unlisted id), l.1 = id ∨ l ∈ labels s := by
        intro l member
        obtain ⟨c, inside, rfl⟩ := List.mem_map.mp member
        obtain ⟨b, before, rfl⟩ := List.mem_map.mp inside
        split
        · rename_i here
          exact .inl here
        · exact .inr (List.mem_map_of_mem before)
      refine ⟨host'.trans ledger.host, orderly, thrives, ?_, fun n l member => ?_⟩
      · rw [same]
        have kept : (labels (s.unlisted id)).map (·.2.1) = (labels s).map (·.2.1) := by
          show (((s.breakpoints.items.map _).map _ : List (BreakpointId × Location × Bool)).map _) = _
          rw [labels, List.map_map, List.map_map, List.map_map]
          refine List.map_congr_left fun b _ => ?_
          dsimp only [Function.comp]
          split <;> rfl
        rw [kept, ledger.added, additions_append]
        exact (List.append_nil _).symm
      · rw [same] at member
        rcases was _ member with rfl | before
        · exact List.mem_append_right _ List.mem_cons_self
        · exact List.mem_append_left _ (ledger.removed n l before)
  | setEnabled id enabled =>
    obtain ⟨thrives, same⟩ := setEnabled_thrives ledger.thrives id enabled
    exact others rfl rfl thrives same

theorem after_ledger (dependable : Dependable can fit) (launches : ∀ n request d,
    host.launch n request = .ok d → fit d.debuggee ∧ d.told = []) (actions : List Action) :
    Ledger can fit host actions (after host actions) := by
  induction actions using List.reverseRecOn with
  | nil => exact new_ledger launches
  | append_singleton actions action ih =>
    rw [after, List.foldl_append]
    exact ih.perform dependable action

/-- A run goes on in which modules come to lie at bases of their own and stay; `d` is the debuggee with
all that it has reported. -/
structure Ongoing (fit : δ → Prop) (host : Host (Overheard δ)) (actions : List Action)
    (d : Overheard δ) : Prop where
  launches : ∀ n request d, host.launch n request = .ok d → fit d.debuggee ∧ d.told = []
  attached : (after host actions).debuggee = some d
  gathers : Gathers d.told

/-- In every run each breakpoint that was added is bound if and only if some module that was loaded has
a place for it where a trap can be set, and the first of these modules decides where. Two runs with the
same additions and the same modules differ in no breakpoint, in whichever order all that came. -/
theorem placed_whenever (dependable : Dependable can fit) {d : Overheard δ}
    (run : Ongoing fit host actions d) :
    let s := after host actions
    let loaded := LoadedModule.among host.symbols d.told
    s.roster.modules = loaded ∧ s.breakpoints.items.map (·.location) = additions actions ∧
      (∀ b ∈ s.breakpoints.items, b.registered = true ∨ .remove b.id ∈ actions) ∧
      (∀ b ∈ s.breakpoints.registered,
        (b.binding.isSome = true ↔ ∃ m ∈ loaded, ∃ binding,
          Breakpoint.bindingIn m b.location = some binding ∧ can binding.address = true) ∧
        b.binding = Breakpoint.place? can loaded b.location) ∧
      ∀ host' actions' d', Ongoing fit host' actions' d' →
        LoadedModule.among host'.symbols d'.told = loaded → additions actions' = additions actions →
        (∀ id, .remove id ∉ actions) → (∀ id, .remove id ∉ actions') →
          (after host' actions').breakpoints.items.map place = s.breakpoints.items.map place := by
  have known {host : Host (Overheard δ)} {actions : List Action} {d : Overheard δ}
      (run : Ongoing fit host actions d) :
      (after host actions).roster.modules = LoadedModule.among host.symbols d.told ∧
        (after host actions).breakpoints.items.map (·.location) = additions actions ∧
        (∀ b ∈ (after host actions).breakpoints.items, b.registered = true ∨ .remove b.id ∈ actions) ∧
        ∀ b ∈ (after host actions).breakpoints.items, b.registered = true →
          b.binding = Breakpoint.place? can (LoadedModule.among host.symbols d.told) b.location := by
    have ledger := after_ledger dependable run.launches actions
    have present : (after host actions).outlook.told = some d.told := by rw [outlook, run.attached]; rfl
    have modules := ledger.thrives.settled.modules _ present run.gathers
    have places := ledger.thrives.settled.places _ present run.gathers
    rw [ledger.host] at modules
    replace modules : (after host actions).roster.modules = LoadedModule.among host.symbols d.told :=
      (modules.trans (List.append_nil _)).symm
    refine ⟨modules, ?_, fun b member => ?_, fun b member registered => ?_⟩
    · rw [← ledger.added, labels, List.map_map]
      rfl
    · cases registered : b.registered with
      | true => exact .inl rfl
      | false =>
        have label : (b.id, b.location, false) ∈ labels (after host actions) :=
          List.mem_map.mpr ⟨b, member, by rw [registered]⟩
        exact .inr (ledger.removed _ _ label)
    · rw [← modules]
      exact places (place b) (List.mem_map_of_mem member) registered
  -- without removals the list of places is a function of the additions and of the modules
  have determined {host : Host (Overheard δ)} {actions : List Action} {d : Overheard δ}
      (run : Ongoing fit host actions d) (none : ∀ id, .remove id ∉ actions) :
      (after host actions).breakpoints.items.map place = (additions actions).map fun l =>
        ⟨l, true, Breakpoint.place? can (LoadedModule.among host.symbols d.told) l⟩ := by
    obtain ⟨_, added, counted, places⟩ := known run
    rw [← added, List.map_map]
    refine List.map_congr_left fun b member => ?_
    have registered := (counted b member).resolve_right (none b.id)
    rw [place, registered, places b member registered]
    rfl
  intro s loaded
  obtain ⟨modules, added, counted, places⟩ := known run
  refine ⟨modules, added, counted, fun b member => ?_,
    fun host' actions' d' run' same additions' none none' => ?_⟩
  · obtain ⟨inside, registered⟩ := List.mem_filter.mp member
    have placed := places b inside registered
    refine ⟨?_, placed⟩
    rw [placed]
    exact Breakpoint.place?_isSome
  · rw [determined run none, determined run' none', same, additions']

end Runs

section Ship

/-- A program without symbols and a library, for parts of which there is memory. -/
def shipHost : Host (Overheard Scripted) where
  config := .standard
  launch _ _ := .ok ⟨⟨1, [], [⟨0x1000, [0x90, 0x90]⟩, ⟨0x2000, [0x90]⟩],
    [⟨.event (.moduleLoaded "/bin/ship" 0x1000 0x10), [], []⟩, ⟨.nothing, [], []⟩,
      ⟨.event (.moduleLoaded "/lib/sail" 0x2000 0x10), [], []⟩], [], []⟩, []⟩
  symbols _ := none

/-- A place in the program, one in the library, and one in the library where there is no memory. -/
def earlyPlaces : List Action :=
  [.add (.address 0x1001), .add (.address 0x2000), .add (.address 0x2008),
    .start ⟨"/bin/ship", "/", []⟩, .pump 0]

def latePlaces : List Action :=
  [.start ⟨"/bin/ship", "/", []⟩, .add (.address 0x1001), .pump 0, .add (.address 0x2000),
    .add (.address 0x2008)]

def shipEvents : List Event :=
  [.moduleLoaded "/bin/ship" 0x1000 0x10, .moduleLoaded "/lib/sail" 0x2000 0x10]

theorem ship_ongoing {actions : List Action} (told :
    (after shipHost actions).debuggee.map (·.told) = some shipEvents) :
    ∃ d, d.told = shipEvents ∧
      Ongoing (Scripted.Willing [(0x1000, 2), (0x2000, 1)]) shipHost actions d := by
  obtain ⟨d, attached, told⟩ := Option.map_eq_some_iff.mp told
  refine ⟨d, told, ⟨?_, attached, ?_⟩⟩
  · rintro _ _ _ ⟨⟩
    exact ⟨⟨rfl, rfl, by simp⟩, rfl⟩
  · rw [told]
    exact ⟨by decide, by simp [shipEvents]⟩

theorem placed_whenever_ship :
    (after shipHost latePlaces).breakpoints.items.map place =
      (after shipHost earlyPlaces).breakpoints.items.map place ∧
    (after shipHost earlyPlaces).breakpoints.items.map (·.binding) =
      [some ⟨0x1001, none⟩, some ⟨0x2000, none⟩, none] := by
  have heardEarly : (after shipHost earlyPlaces).debuggee.map (·.told) = some shipEvents := by
    decide +kernel
  have heardLate : (after shipHost latePlaces).debuggee.map (·.told) = some shipEvents := by
    decide +kernel
  obtain ⟨d, told, early⟩ := ship_ongoing heardEarly
  obtain ⟨d', told', late⟩ := ship_ongoing heardLate
  obtain ⟨_, _, _, _, same⟩ := placed_whenever Scripted.dependable early
  refine ⟨same _ _ d' late (by rw [told, told']) rfl ?_ ?_, by decide +kernel⟩
  · simp [earlyPlaces]
  · simp [latePlaces]

end Ship

end SourceDebugger.Session
