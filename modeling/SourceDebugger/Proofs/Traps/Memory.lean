import SourceDebugger.Proofs.Machine.Dress
import SourceDebugger.Proofs.Traps.Table
/-!
Traps in the memory of the machine. Inserting and taking out fail only where no memory is.
-/
namespace SourceDebugger

namespace Machine

open Effect

def peek (m : Machine) (s : Spot) : UInt8 := ((m.region s.1)[s.2]?).getD 0

def poke (m : Machine) (s : Spot) (byte : UInt8) : Machine := m.write s.1 s.2 [byte]

theorem load_one (m : Machine) (address : UInt64) :
    m.load address 1 = match m.locate address 1 with
      | .ok s => .ok [m.peek s]
      | .error e => .error e := by
  simp only [load, if_neg Nat.one_ne_zero]
  cases located : m.locate address 1 with
  | error e => rfl
  | ok place =>
    obtain ⟨r, offset⟩ := place
    have within : offset < (m.region r).size := by have := locate_ok located; omega
    show Except.ok _ = Except.ok _
    congr 1
    apply List.ext_getElem?
    intro i
    rw [Array.getElem?_toList, Array.getElem?_extract]
    cases i with
    | zero => simp [peek, Array.getElem?_eq_getElem within] <;> omega
    | succ i => simp <;> omega

theorem store_one (m : Machine) (address : UInt64) (byte : UInt8) :
    store address [byte] m = match m.locate address 1 with
      | .ok s => (.ok (), m.poke s byte)
      | .error e => (.error e, m) := by
  rw [store_run]
  rw [show [byte].length = 1 from rfl]
  cases m.locate address 1 <;> rfl

end Machine

open Effect Machine

namespace TrapByte

theorem insert_run (t : TrapByte) (fresh : t.inserted = false) (m : Machine) :
    t.insert m = match m.locate t.address 1 with
      | .ok s => (({ t with covered := m.peek s, inserted := true }, .ok ()), m.poke s trapByte)
      | .error e => ((t, .error e), m) := by
  have read : Debuggee.read m t.address 1 = _ := load_one m t.address
  have write : (Debuggee.write t.address [trapByte] : Access Machine Unit) m = _ :=
    store_one m t.address trapByte
  simp only [insert, fresh, Bool.false_eq_true, if_false]
  rw [certain_bind, certain_get]
  dsimp only
  rw [read]
  cases located : m.locate t.address 1 with
  | error e => rfl
  | ok s =>
    dsimp only
    rw [certain_bind, write, located]
    rfl

theorem remove_run (t : TrapByte) (present : t.inserted = true) (m : Machine) :
    t.remove m = match m.locate t.address 1 with
      | .ok s => (({ t with inserted := false }, .ok ()), m.poke s t.covered)
      | .error e => ((t, .error e), m) := by
  have write : (Debuggee.write t.address [t.covered] : Access Machine Unit) m = _ :=
    store_one m t.address t.covered
  simp only [remove, present, Bool.not_true, Bool.false_eq_true, if_false]
  rw [certain_bind, write]
  cases located : m.locate t.address 1 <;> rfl

end TrapByte

namespace Instrumented

variable {i : Instrumented Machine} {a : UInt64} {t : Trap} {s : Spot}

theorem setTraps_run (f : Traps → Traps) (i : Instrumented Machine) :
    setTraps f i = (.ok (), ⟨f i.traps, i.debuggee⟩) := rfl

/-- A trap byte that could be put into memory. -/
theorem onByte_insert (fresh : t.byte.inserted = false)
    (located : i.debuggee.locate t.address 1 = .ok s) :
    onByte t TrapByte.insert i =
      (.ok { t with byte := { t.byte with covered := i.debuggee.peek s, inserted := true } },
        ⟨i.traps, i.debuggee.poke s trapByte⟩) := by
  have address : i.debuggee.locate t.byte.address 1 = .ok s := located
  simp only [onByte, TrapByte.insert_run t.byte fresh, address]

/-- A trap byte that could be taken out of memory. -/
theorem onByte_remove (present : t.byte.inserted = true)
    (located : i.debuggee.locate t.address 1 = .ok s) :
    onByte t TrapByte.remove i =
      (.ok { t with byte := { t.byte with inserted := false } },
        ⟨i.traps, i.debuggee.poke s t.byte.covered⟩) := by
  have address : i.debuggee.locate t.byte.address 1 = .ok s := located
  simp only [onByte, TrapByte.remove_run t.byte present, address]

theorem onByte_insert_nowhere {e : Fault} (fresh : t.byte.inserted = false)
    (absent : i.traps.contains t.address = false)
    (unmapped : i.debuggee.locate t.address 1 = .error e) :
    onByte t TrapByte.insert i = (.error e, i) := by
  have address : i.debuggee.locate t.byte.address 1 = .error e := unmapped
  simp only [onByte, TrapByte.insert_run t.byte fresh, address, Traps.update_absent absent]

/-- A new trap goes where memory is, and covers the byte that is there. -/
theorem acquire_run (a : UInt64) (i : Instrumented Machine) :
    acquire a i = if i.traps.contains a then (.ok (), i) else
      match i.debuggee.locate a 1 with
      | .ok s => (.ok (), ⟨i.traps.insert ⟨⟨a, i.debuggee.peek s, true⟩, [], 0⟩,
          i.debuggee.poke s trapByte⟩)
      | .error e => (.error e, i) := by
  rw [acquire, bind_ok (get_run i), ite_run]
  split
  · rfl
  · rename_i absent
    have none : i.traps.contains a = false := by simpa using absent
    cases located : i.debuggee.locate a 1 with
    | error e => exact bind_error (onByte_insert_nowhere rfl none located)
    | ok s => exact bind_ok (onByte_insert (t := ⟨.new a, [], 0⟩) rfl located)

/-- Only where no memory is, there cannot be a trap. -/
theorem acquire_located (located : i.debuggee.locate a 1 = .ok s) :
    ∃ j, acquire a i = (.ok (), j) := by
  rw [acquire_run, located]
  by_cases present : i.traps.contains a = true
  · exact ⟨i, if_pos present⟩
  · exact ⟨_, if_neg present⟩

/-- A trap that somebody owns stays; any other goes, and the byte it covered comes back. -/
theorem release_run (found : i.traps.find? a = some t) (present : t.byte.inserted = true)
    (located : i.debuggee.locate a 1 = .ok s) :
    release a i = (.ok (),
      if t.isUnused then ⟨i.traps.erase a, i.debuggee.poke s t.byte.covered⟩ else i) := by
  have address := Traps.find?_address found
  rw [release, bind_ok (get_run i), found]
  dsimp only
  rw [ite_run]
  split
  · rw [bind_ok (setTraps_run _ i), bind_ok (onByte_remove present (address ▸ located)), pure_run]
  · rfl

theorem release_absent (absent : i.traps.contains a = false) : release a i = (.ok (), i) := by
  have none : i.traps.find? a = none := by simpa [Traps.contains] using absent
  rw [release, bind_ok (get_run i), none]
  rfl

theorem addUser_run (a : UInt64) (id : BreakpointId) (i : Instrumented Machine) :
    addUser a id i = match acquire a i with
      | (.ok (), i) => (.ok (), ⟨i.traps.update a (.addUser id), i.debuggee⟩)
      | (.error e, i) => (.error e, i) := by
  rw [addUser, bind_run]
  rcases acquire a i with ⟨_ | _, _⟩ <;> rfl

theorem addStep_run (a : UInt64) (i : Instrumented Machine) :
    addStep a i = match acquire a i with
      | (.ok (), i) =>
        (.ok (), ⟨i.traps.update a fun t => { t with steps := t.steps + 1 }, i.debuggee⟩)
      | (.error e, i) => (.error e, i) := by
  rw [addStep, bind_run]
  rcases acquire a i with ⟨_ | _, _⟩ <;> rfl

theorem addUser_nowhere {id : BreakpointId} {e : Fault} (failed : addUser a id i = (.error e, i)) :
    ∃ e, i.debuggee.locate a 1 = .error e := by
  cases located : i.debuggee.locate a 1 with
  | error e => exact ⟨e, rfl⟩
  | ok s =>
    obtain ⟨j, done⟩ := acquire_located located
    rw [addUser_run, done] at failed
    cases failed

theorem addStep_nowhere {e : Fault} (failed : addStep a i = (.error e, i)) :
    ∃ e, i.debuggee.locate a 1 = .error e := by
  cases located : i.debuggee.locate a 1 with
  | error e => exact ⟨e, rfl⟩
  | ok s =>
    obtain ⟨j, done⟩ := acquire_located located
    rw [addStep_run, done] at failed
    cases failed

theorem removeUser_run (a : UInt64) (id : BreakpointId) (i : Instrumented Machine) :
    removeUser a id i = release a ⟨i.traps.update a (.removeUser id), i.debuggee⟩ := by
  rw [removeUser, bind_ok (setTraps_run _ i)]

theorem removeStep_run (a : UInt64) (i : Instrumented Machine) :
    removeStep a i =
      release a ⟨i.traps.update a fun t => { t with steps := t.steps - 1 }, i.debuggee⟩ := by
  rw [removeStep, bind_ok (setTraps_run _ i)]

theorem lift_run (found : i.traps.find? a = some t) (present : t.byte.inserted = true)
    (located : i.debuggee.locate a 1 = .ok s) :
    lift a i = (.ok (),
      ⟨i.traps.update a fun _ => { t with byte := { t.byte with inserted := false } },
        i.debuggee.poke s t.byte.covered⟩) := by
  have address := Traps.find?_address found
  rw [lift, bind_ok (get_run i), found]
  dsimp only
  rw [bind_ok (onByte_remove present (address ▸ located)), setTraps_run]

theorem restore_run (found : i.traps.find? a = some t) (absent : t.byte.inserted = false)
    (located : i.debuggee.locate a 1 = .ok s) :
    restore a i = (.ok (),
      ⟨i.traps.update a fun _ =>
          { t with byte := { t.byte with covered := i.debuggee.peek s, inserted := true } },
        i.debuggee.poke s trapByte⟩) := by
  have address := Traps.find?_address found
  rw [restore, bind_ok (get_run i), found]
  dsimp only
  rw [bind_ok (onByte_insert absent (address ▸ located)), setTraps_run]

end Instrumented

end SourceDebugger
