import Mathlib.Data.List.Pairwise
import SourceDebugger.Memory.Mapping
import SourceDebugger.Module
/-!
What the image of a file covers. It reaches from the file's first byte to the end of the last mapping
of the file, so that it holds all of the file, and besides only what is mapped between parts of it.
-/
namespace SourceDebugger

namespace Mapping

/-- Equal paths are one file. -/
def Of (m : Mapping) (path : String) : Prop :=
  m.path.map Path.components = some (Path.components path)

def Covers (m : Mapping) (a : UInt64) : Prop := m.start ≤ a ∧ a < m.stop

/-- The memory map of a process: in ascending order, and no address twice. -/
structure Listed (maps : List Mapping) : Prop where
  proper : ∀ m ∈ maps, m.start < m.stop
  sorted : maps.Pairwise fun m n => m.start ≤ n.start
  apart : maps.Pairwise fun m n => ∀ a, m.Covers a → ¬ n.Covers a

/-- The start of the file is mapped, in front of the mapping or by it. -/
def Begun (maps : List Mapping) (m : Mapping) : Prop :=
  ∃ first ∈ maps, ∃ path, first.path = some path ∧ first.offset = 0 ∧ m.Of path ∧
    first.start ≤ m.start

/-- What is mapped behind the first byte of a file and in front of another part of it. -/
def Enclosed (maps : List Mapping) (path : String) (m : Mapping) : Prop :=
  ∃ first ∈ maps, ∃ last ∈ maps, first.Of path ∧ first.offset = 0 ∧ last.Of path ∧
    first.stop ≤ m.start ∧ m.stop ≤ last.start

instance (m : Mapping) (path : String) : Decidable (m.Of path) :=
  inferInstanceAs (Decidable (_ = _))

instance (m : Mapping) (a : UInt64) : Decidable (m.Covers a) := inferInstanceAs (Decidable (_ ∧ _))

section Order

variable {maps : List Mapping} {m n : Mapping}

/-- In a memory map every mapping ends before the next one starts. -/
theorem Listed.before (listed : Listed maps) : maps.Pairwise fun m n => m.stop ≤ n.start := by
  have ordered := List.pairwise_and_iff.mpr ⟨listed.sorted, listed.apart⟩
  refine ordered.imp_of_mem fun {m n} _ later ⟨order, apart⟩ => UInt64.not_lt.mp fun overlap => ?_
  exact apart n.start ⟨order, overlap⟩ ⟨UInt64.le_refl _, listed.proper n later⟩

theorem listed_of_before (proper : ∀ m ∈ maps, m.start < m.stop)
    (before : maps.Pairwise fun m n => m.stop ≤ n.start) : Listed maps where
  proper := proper
  sorted := before.imp_of_mem fun {m _} one _ order =>
    UInt64.le_trans (UInt64.le_of_lt (proper m one)) order
  apart := before.imp fun {_ _} order _ inside other =>
    UInt64.not_lt.mpr (UInt64.le_trans order other.1) inside.2

theorem Listed.aside (listed : Listed maps) (one : m ∈ maps) (other : n ∈ maps) (differ : m ≠ n) :
    m.stop ≤ n.start ∨ n.stop ≤ m.start := by
  have : Std.Symm fun m n : Mapping => m.stop ≤ n.start ∨ n.stop ≤ m.start := ⟨fun _ _ => Or.symm⟩
  exact (listed.before.imp (S := fun m n => m.stop ≤ n.start ∨ n.stop ≤ m.start) .inl).forall
    one other differ

end Order

end Mapping

namespace Image

open Mapping

def Covers (i : Image) (a : UInt64) : Prop := i.base ≤ a ∧ a.toNat < i.base.toNat + i.size.toNat

/-- How an image lies over the mappings in front of its first one, that one, and those behind. -/
structure Reaches (i : Image) (front : List Mapping) (first : Mapping) (back : List Mapping) :
    Prop where
  path : first.path = some i.path
  offset : first.offset = 0
  base : first.start = i.base
  earliest : ∀ m ∈ front, m.Of i.path → m.offset ≠ 0
  holds : ∀ m ∈ first :: back, m.Of i.path →
    i.base ≤ m.start ∧ m.stop.toNat ≤ i.base.toNat + i.size.toNat
  ends : ∃ last ∈ first :: back, last.Of i.path ∧ last.stop.toNat = i.base.toNat + i.size.toNat

/-- An image begins with the first mapping of its file's start, and holds all of the file from there
on. -/
def Spans (maps : List Mapping) (i : Image) : Prop :=
  ∃ front first back, maps = front ++ first :: back ∧ i.Reaches front first back

/-- Every file of which the start is mapped has one image. -/
structure Gathers (maps : List Mapping) (images : List Image) : Prop where
  distinct : images.Pairwise fun i j => Path.components i.path ≠ Path.components j.path
  spans : ∀ i ∈ images, i.Spans maps
  begun : ∀ m ∈ maps, m.offset = 0 → ∀ path, m.path = some path → ∃ i ∈ images, m.Of i.path

section Place

variable {seen : List Mapping} {images : List Image} {i : Image} {m : Mapping}

theorem modify_only {p : Image → Bool} (f : Image → Image)
    (only : images.Pairwise fun i j => p i = true → p j = false) {index : Nat}
    (found : images.findIdx? p = some index) :
    images.modify index f = images.map fun i => if p i then f i else i := by
  induction images generalizing index with
  | nil => simp at found
  | cons i rest ih =>
    obtain ⟨others, only⟩ := List.pairwise_cons.mp only
    rw [List.findIdx?_cons] at found
    by_cases here : p i = true
    · rw [if_pos here] at found
      cases found
      have kept : rest.map (fun j => if p j then f j else j) = rest := by
        refine (List.map_congr_left fun j member => ?_).trans (List.map_id rest)
        rw [others j member here]
        rfl
      rw [List.modify_zero_cons, List.map_cons, if_pos here, kept]
    · rw [if_neg here] at found
      obtain ⟨later, behind, rfl⟩ := Option.map_eq_some_iff.mp found
      rw [List.modify_succ_cons, List.map_cons, if_neg here, ih only behind]

theorem same_iff_of {path : String} (named : m.path = some path) :
    Path.same i.path path = true ↔ m.Of i.path := by
  rw [Path.same, beq_iff_eq, Of, named, Option.map_some, Option.some_inj]
  exact eq_comm

/-- A mapping of a file that has an image already makes that one larger, and no other one. -/
theorem place_known (distinct : images.Pairwise fun i j =>
      Path.components i.path ≠ Path.components j.path) (known : ∃ i ∈ images, m.Of i.path) :
    place images m = images.map fun i => if m.Of i.path then i.extend m else i := by
  obtain ⟨path, named⟩ : ∃ path, m.path = some path := by
    obtain ⟨i, -, own⟩ := known
    obtain ⟨path, named, -⟩ := Option.map_eq_some_iff.mp own
    exact ⟨path, named⟩
  have only : images.Pairwise fun i j =>
      Path.same i.path path = true → Path.same j.path path = false := by
    refine distinct.imp fun {i j} differ one => Bool.eq_false_iff.mpr fun other => differ ?_
    exact (beq_iff_eq.mp one).trans (beq_iff_eq.mp other).symm
  simp only [place, named]
  cases found : images.findIdx? fun i => Path.same i.path path with
  | none =>
    obtain ⟨i, member, own⟩ := known
    have other := List.findIdx?_eq_none_iff.mp found i member
    rw [(same_iff_of named).mpr own] at other
    contradiction
  | some index =>
    dsimp only
    rw [modify_only _ only found]
    simp only [same_iff_of named]

theorem place_unknown {path : String} (named : m.path = some path)
    (unknown : ∀ i ∈ images, ¬ m.Of i.path) : place images m =
      if m.offset = 0 then images ++ [⟨path, m.start, m.stop - m.start⟩] else images := by
  have none : images.findIdx? (fun i => Path.same i.path path) = none :=
    List.findIdx?_eq_none_iff.mpr fun i member =>
      Bool.eq_false_iff.mpr fun same => unknown i member ((same_iff_of named).mp same)
  simp only [place, named, none]

theorem Spans.foreign (spans : i.Spans seen) (foreign : ¬ m.Of i.path) : i.Spans (seen ++ [m]) := by
  obtain ⟨front, first, back, rfl, reaches⟩ := spans
  refine ⟨front, first, back ++ [m], by simp, { reaches with holds := ?_, ends := ?_ }⟩
  · intro n member own
    rw [← List.cons_append, List.mem_append, List.mem_singleton] at member
    rcases member with member | rfl
    · exact reaches.holds n member own
    · exact absurd own foreign
  · obtain ⟨last, member, ends⟩ := reaches.ends
    exact ⟨last, List.mem_append_left [m] member, ends⟩

/-- A mapping of the file that lies behind all others is where the image ends. -/
theorem extend_end (behind : i.base.toNat + i.size.toNat ≤ m.start.toNat) (proper : m.start < m.stop) :
    i.base.toNat + (i.extend m).size.toNat = m.stop.toNat := by
  have order := UInt64.lt_iff_toNat_lt.mp proper
  have below : i.base ≤ m.stop := UInt64.le_iff_toNat_le.mpr (by omega)
  have reach := UInt64.toNat_sub_of_le _ _ below
  rw [extend, if_neg (UInt64.not_lt.mpr below)]
  dsimp only
  rw [if_pos (UInt64.lt_iff_toNat_lt.mpr (by omega)), reach]
  omega

theorem Spans.extend (spans : i.Spans seen) (own : m.Of i.path)
    (above : ∀ n ∈ seen, n.stop ≤ m.start) (proper : m.start < m.stop) :
    (i.extend m).Spans (seen ++ [m]) := by
  obtain ⟨front, first, back, rfl, reaches⟩ := spans
  obtain ⟨last, member, -, ends⟩ := reaches.ends
  have behind : i.base.toNat + i.size.toNat ≤ m.start.toNat :=
    ends ▸ UInt64.le_iff_toNat_le.mp (above last (List.mem_append_right front member))
  have stop := extend_end behind proper
  have order := UInt64.lt_iff_toNat_lt.mp proper
  refine ⟨front, first, back ++ [m], by simp, { reaches with holds := ?_, ends := ?_ }⟩
  · intro n member own
    rw [← List.cons_append, List.mem_append, List.mem_singleton] at member
    rcases member with member | rfl
    · obtain ⟨low, high⟩ := reaches.holds n member own
      exact ⟨low, by show _ ≤ i.base.toNat + _; omega⟩
    · exact ⟨UInt64.le_iff_toNat_le.mpr (by show i.base.toNat ≤ _; omega), Nat.le_of_eq stop.symm⟩
  · exact ⟨m, List.mem_append_right (first :: back) List.mem_cons_self, own, stop.symm⟩

/-- The image of a file that was not seen before. -/
theorem spans_new {path : String} (named : m.path = some path) (start : m.offset = 0)
    (unseen : ∀ n ∈ seen, n.Of path → n.offset ≠ 0) (proper : m.start < m.stop) :
    Spans (seen ++ [m]) ⟨path, m.start, m.stop - m.start⟩ := by
  have order := UInt64.lt_iff_toNat_lt.mp proper
  have size := UInt64.toNat_sub_of_le _ _ (UInt64.le_of_lt proper)
  refine ⟨seen, m, [], rfl, named, start, rfl, unseen, ?_, m, List.mem_cons_self, ?_, ?_⟩
  · intro n member own
    rw [List.mem_singleton.mp member]
    exact ⟨UInt64.le_refl _, by dsimp only; omega⟩
  · rw [Of, named]
    rfl
  · dsimp only
    omega

/-- Files that have begun keep their images, and one more mapping may begin one. -/
theorem Gathers.begun_snoc {now : List Image} (gathers : Gathers seen images)
    (kept : ∀ i ∈ images, ∃ j ∈ now, j.path = i.path)
    (own : m.offset = 0 → ∀ path, m.path = some path → ∃ i ∈ now, m.Of i.path) :
    ∀ n ∈ seen ++ [m], n.offset = 0 → ∀ path, n.path = some path → ∃ i ∈ now, n.Of i.path := by
  intro n member start path named
  rcases List.mem_append.mp member with old | new
  · obtain ⟨i, there, of⟩ := gathers.begun n old start path named
    obtain ⟨j, here, same⟩ := kept i there
    exact ⟨j, here, same ▸ of⟩
  · rw [List.mem_singleton.mp new] at start named ⊢
    exact own start path named

theorem Gathers.known (gathers : Gathers seen images) (above : ∀ n ∈ seen, n.stop ≤ m.start)
    (proper : m.start < m.stop) (known : ∃ i ∈ images, m.Of i.path) :
    Gathers (seen ++ [m]) (place images m) := by
  have kept (i : Image) : (if m.Of i.path then i.extend m else i).path = i.path := by
    split <;> rfl
  rw [place_known gathers.distinct known]
  refine ⟨List.pairwise_map.mpr (by simpa only [kept] using gathers.distinct), ?_,
    gathers.begun_snoc (fun i there => ⟨_, List.mem_map_of_mem there, kept i⟩) fun _ _ _ => ?_⟩
  · intro j member
    obtain ⟨i, old, rfl⟩ := List.mem_map.mp member
    by_cases own : m.Of i.path
    · rw [if_pos own]
      exact (gathers.spans i old).extend own above proper
    · rw [if_neg own]
      exact (gathers.spans i old).foreign own
  · obtain ⟨i, there, own⟩ := known
    exact ⟨_, List.mem_map_of_mem there, by rwa [kept]⟩

theorem Gathers.new {path : String} (gathers : Gathers seen images) (proper : m.start < m.stop)
    (named : m.path = some path) (start : m.offset = 0) (unknown : ∀ i ∈ images, ¬ m.Of i.path) :
    Gathers (seen ++ [m]) (images ++ [⟨path, m.start, m.stop - m.start⟩]) := by
  have self : m.Of path := congrArg (Option.map Path.components) named
  refine ⟨List.pairwise_append.mpr ⟨gathers.distinct, List.pairwise_singleton _ _, ?_⟩, ?_,
    gathers.begun_snoc (fun i there => ⟨i, List.mem_append_left _ there, rfl⟩) fun _ _ _ =>
      ⟨_, List.mem_append_right images List.mem_cons_self, self⟩⟩
  · intro i member j new equal
    rw [List.mem_singleton.mp new] at equal
    exact unknown i member (self.trans (congrArg some equal.symm))
  · intro i member
    rcases List.mem_append.mp member with old | new
    · exact (gathers.spans i old).foreign (unknown i old)
    · rw [List.mem_singleton.mp new]
      refine spans_new named start (fun n seen own start => ?_) proper
      obtain ⟨other, written, -⟩ := Option.map_eq_some_iff.mp own
      obtain ⟨i, there, of⟩ := gathers.begun n seen start other written
      exact unknown i there (self.trans (own.symm.trans of))

/-- A mapping that is of no image, and begins none, leaves the images as they are. -/
theorem Gathers.pass (gathers : Gathers seen images) (unknown : ∀ i ∈ images, ¬ m.Of i.path)
    (begins : m.path = none ∨ m.offset ≠ 0) : Gathers (seen ++ [m]) images := by
  refine ⟨gathers.distinct, fun i member => (gathers.spans i member).foreign (unknown i member),
    gathers.begun_snoc (fun i there => ⟨i, there, rfl⟩) fun start path named => ?_⟩
  rcases begins with nameless | later
  · rw [named] at nameless
    contradiction
  · exact absurd start later

/-- One more mapping behind those seen keeps the images what they should be. -/
theorem Gathers.place (gathers : Gathers seen images) (above : ∀ n ∈ seen, n.stop ≤ m.start)
    (proper : m.start < m.stop) : Gathers (seen ++ [m]) (place images m) := by
  by_cases known : ∃ i ∈ images, m.Of i.path
  · exact gathers.known above proper known
  have unknown (i : Image) (member : i ∈ images) : ¬ m.Of i.path := fun own =>
    known ⟨i, member, own⟩
  cases named : m.path with
  | none =>
    simp only [Image.place, named]
    exact gathers.pass unknown (.inl named)
  | some path =>
    rw [place_unknown named unknown]
    by_cases start : m.offset = 0
    · rw [if_pos start]
      exact gathers.new proper named start unknown
    · rw [if_neg start]
      exact gathers.pass unknown (.inr start)

theorem Gathers.foldl {rest : List Mapping} (gathers : Gathers seen images)
    (proper : ∀ m ∈ rest, m.start < m.stop)
    (before : (seen ++ rest).Pairwise fun m n => m.stop ≤ n.start) :
    Gathers (seen ++ rest) (rest.foldl Image.place images) := by
  induction rest generalizing seen images with
  | nil => rwa [List.append_nil]
  | cons m rest ih =>
    obtain ⟨here, later⟩ := List.forall_mem_cons.mp proper
    have above (n : Mapping) (member : n ∈ seen) : n.stop ≤ m.start :=
      (List.pairwise_append.mp before).2.2 n member m List.mem_cons_self
    rw [List.append_cons] at before ⊢
    exact ih (gathers.place above here) later before

/-- The images of a memory map. -/
theorem gathers_ofMappings {maps : List Mapping} (listed : Listed maps) :
    Gathers maps (ofMappings maps) := by
  have none : Gathers [] [] := ⟨.nil, by simp, by simp⟩
  exact none.foldl listed.proper listed.before

end Place

section Foreign

variable {maps : List Mapping} {i : Image} {m : Mapping} {a : UInt64}

/-- A mapping of the file is in its image unless it lies in front of the file's start. -/
theorem Spans.covers (spans : i.Spans maps) (member : m ∈ maps) (own : m.Of i.path)
    (listed : Listed maps) (behind : i.base ≤ m.start) (inside : m.Covers a) : i.Covers a := by
  obtain ⟨front, first, back, rfl, reaches⟩ := spans
  have later : m ∈ first :: back := by
    refine (List.mem_append.mp member).resolve_left fun early => ?_
    have order := (List.pairwise_append.mp listed.before).2.2 m early first List.mem_cons_self
    rw [reaches.base] at order
    exact UInt64.not_lt.mpr (UInt64.le_trans order behind) (listed.proper m member)
  have stop := (reaches.holds m later own).2
  have above := UInt64.lt_iff_toNat_lt.mp inside.2
  exact ⟨UInt64.le_trans behind inside.1, by omega⟩

theorem Spans.base_le (spans : i.Spans maps) (member : m ∈ maps) (own : m.Of i.path)
    (start : m.offset = 0) : i.base ≤ m.start := by
  obtain ⟨front, first, back, rfl, reaches⟩ := spans
  rcases List.mem_append.mp member with early | late
  · exact absurd start (reaches.earliest m early own)
  · exact (reaches.holds m late own).1

/-- Of another file, an image has just what is mapped between two parts of its own. -/
theorem Spans.meets_iff (spans : i.Spans maps) (listed : Listed maps) (member : m ∈ maps)
    (foreign : ¬ m.Of i.path) : (∃ a, i.Covers a ∧ m.Covers a) ↔ Enclosed maps i.path m := by
  have differ {n : Mapping} (own : n.Of i.path) : n ≠ m := fun same => foreign (same ▸ own)
  constructor
  · obtain ⟨front, first, back, rfl, reaches⟩ := spans
    rintro ⟨a, ⟨low, high⟩, start, stop⟩
    obtain ⟨last, late, own, ends⟩ := reaches.ends
    have named : first.Of i.path := congrArg (Option.map Path.components) reaches.path
    have here : first ∈ front ++ first :: back := List.mem_append_right front List.mem_cons_self
    have there : last ∈ front ++ first :: back := List.mem_append_right front late
    refine ⟨first, here, last, there, named, reaches.offset, own, ?_, ?_⟩
    · refine (listed.aside here member (differ named)).resolve_right fun below => ?_
      rw [reaches.base] at below
      exact UInt64.not_lt.mpr (UInt64.le_trans below low) stop
    · refine (listed.aside there member (differ own)).resolve_left fun above => ?_
      have order := UInt64.le_iff_toNat_le.mp (UInt64.le_trans above start)
      omega
  · rintro ⟨first, here, last, there, own, offset, other, below, above⟩
    have proper := listed.proper m member
    have base := spans.base_le here own offset
    have order : i.base ≤ m.start :=
      UInt64.le_trans base (UInt64.le_trans (UInt64.le_of_lt (listed.proper first here)) below)
    have reach : i.base ≤ last.start :=
      UInt64.le_trans order (UInt64.le_trans (UInt64.le_of_lt proper) above)
    have covered := spans.covers there other listed reach
      ⟨UInt64.le_refl _, listed.proper last there⟩
    have less := UInt64.lt_iff_toNat_lt.mp (UInt64.lt_of_lt_of_le proper above)
    have far := covered.2
    exact ⟨m.start, ⟨order, by omega⟩, UInt64.le_refl _, proper⟩

end Foreign

end Image

/-- The image a module was loaded as. -/
def LoadedModule.image (l : LoadedModule) : Image := ⟨l.path, l.base, l.size⟩

section Lookup

open Mapping

variable {maps : List Mapping} {i : Image} {a : UInt64}

theorem Image.Spans.contains (spans : i.Spans maps) {l : LoadedModule} (loaded : l.image = i) :
    l.contains a = true ↔ i.Covers a := by
  obtain ⟨front, first, back, -, reaches⟩ := spans
  obtain ⟨last, -, -, ends⟩ := reaches.ends
  have limit := last.stop.toNat_lt
  subst loaded
  have sum : (l.base + l.size).toNat = l.base.toNat + l.size.toNat := by
    have whole : last.stop.toNat = l.base.toNat + l.size.toNat := ends
    rw [UInt64.toNat_add]
    omega
  rw [LoadedModule.contains, Bool.and_eq_true, decide_eq_true_eq, decide_eq_true_eq,
    UInt64.lt_iff_toNat_lt, sum]
  rfl

theorem moduleAt?_covers {r : Roster} {l : LoadedModule}
    (loaded : r.modules.map LoadedModule.image = Image.ofMappings maps)
    (gathers : Image.Gathers maps (Image.ofMappings maps)) (answer : r.moduleAt? a = some l) :
    l.image.Spans maps ∧ l.image.Covers a := by
  rw [Roster.moduleAt?] at answer
  have spans := gathers.spans l.image (loaded ▸ List.mem_map_of_mem (List.mem_of_find?_eq_some answer))
  have contains := List.find?_some answer
  exact ⟨spans, (spans.contains rfl).mp contains⟩

/-- What is found in a mapping by its addresses. -/
structure Locates (maps : List Mapping) (r : Roster) (m : Mapping) (a : UInt64) : Prop where
  sound : ∀ l, r.moduleAt? a = some l → m.Of l.path
  found : (∃ l, r.moduleAt? a = some l) ↔ Begun maps m

theorem locates_modules (listed : Listed maps) {r : Roster}
    (loaded : r.modules.map LoadedModule.image = Image.ofMappings maps) {m : Mapping}
    (member : m ∈ maps) (free : ∀ path, ¬ m.Of path → ¬ Enclosed maps path m) (inside : m.Covers a) :
    Locates maps r m a := by
  have gathers := Image.gathers_ofMappings listed
  have sound (l : LoadedModule) (answer : r.moduleAt? a = some l) : m.Of l.path := by
    obtain ⟨spans, covers⟩ := moduleAt?_covers loaded gathers answer
    by_contra foreign
    exact free l.path foreign ((spans.meets_iff listed member foreign).mp ⟨a, covers, inside⟩)
  refine ⟨sound, ?_, ?_⟩
  · rintro ⟨l, answer⟩
    obtain ⟨spans, covers⟩ := moduleAt?_covers loaded gathers answer
    obtain ⟨front, first, back, rfl, reaches⟩ := spans
    have here : first ∈ front ++ first :: back := List.mem_append_right front List.mem_cons_self
    refine ⟨first, here, l.path, reaches.path, reaches.offset, sound l answer, ?_⟩
    by_cases same : first = m
    · rw [same]
      exact UInt64.le_refl _
    rcases listed.aside here member same with before | behind
    · exact UInt64.le_trans (UInt64.le_of_lt (listed.proper first here)) before
    · rw [reaches.base] at behind
      exact absurd inside.2 (UInt64.not_lt.mpr (UInt64.le_trans behind covers.1))
  · rintro ⟨first, here, path, named, offset, own, order⟩
    obtain ⟨i, begun, of⟩ := gathers.begun first here offset path named
    have spans := gathers.spans i begun
    have mine : m.Of i.path := by
      rw [Of, named, Option.map_some] at of
      exact own.trans of
    have base := UInt64.le_trans (spans.base_le here of offset) order
    obtain ⟨l, there, rfl⟩ := List.mem_map.mp (loaded ▸ begun)
    have contains := (spans.contains rfl).mpr (spans.covers member mine listed base inside)
    exact Option.isSome_iff_exists.mp (List.find?_isSome.mpr ⟨l, there, contains⟩)

end Lookup

open Mapping

/-- Each file has one image, from its start to its end; what an image has of another file lies between
parts of its own, and outside such places the module found is the file that is mapped. -/
theorem images_gathered {maps : List Mapping} (listed : Listed maps) :
    Image.Gathers maps (Image.ofMappings maps) ∧
      (∀ i ∈ Image.ofMappings maps, ∀ m ∈ maps, ¬ m.Of i.path →
        ((∃ a, i.Covers a ∧ m.Covers a) ↔ Enclosed maps i.path m)) ∧
      ∀ r : Roster, r.modules.map LoadedModule.image = Image.ofMappings maps →
        ∀ m ∈ maps, (∀ path, ¬ m.Of path → ¬ Enclosed maps path m) →
          ∀ a, m.Covers a → Locates maps r m a := by
  have gathers := Image.gathers_ofMappings listed
  refine ⟨gathers, ?_, ?_⟩
  · intro i here m member foreign
    exact (gathers.spans i here).meets_iff listed member foreign
  · intro r loaded m member free a inside
    exact locates_modules listed loaded member free inside

/-- A ship with code and data, its stores, and a crane. -/
def moored : List Mapping :=
  [⟨0x1000, 0x2000, 0, false, some "/bin/ship"⟩, ⟨0x2000, 0x3000, 0x1000, true, some "/bin/ship"⟩,
    ⟨0x3000, 0x4000, 0, false, none⟩, ⟨0x8000, 0x9000, 0, true, some "/lib/crane"⟩]

/-- The crane stands between two parts of the ship. -/
def woven : List Mapping :=
  [⟨0x1000, 0x2000, 0, true, some "/bin/ship"⟩, ⟨0x2000, 0x3000, 0, true, some "/lib/crane"⟩,
    ⟨0x3000, 0x4000, 0x1000, false, some "/bin/ship"⟩]

/-- A process that has loaded all images of its memory map. -/
def Roster.ofMappings (maps : List Mapping) : Roster :=
  { Roster.empty with modules := (Image.ofMappings maps).map fun i => ⟨i.path, i.base, i.size, none⟩ }

theorem image_ofMappings (maps : List Mapping) :
    (Roster.ofMappings maps).modules.map LoadedModule.image = Image.ofMappings maps := by
  rw [Roster.ofMappings, List.map_map]
  exact List.map_id _

theorem images_gathered_moored : Listed moored ∧ Image.Gathers moored (Image.ofMappings moored) ∧
    ((∃ a, (⟨"/bin/ship", 0x1000, 0x2000⟩ : Image).Covers a ∧
        (⟨0x8000, 0x9000, 0, true, some "/lib/crane"⟩ : Mapping).Covers a) ↔
      Enclosed moored "/bin/ship" ⟨0x8000, 0x9000, 0, true, some "/lib/crane"⟩) ∧
    Locates moored (Roster.ofMappings moored)
      ⟨0x2000, 0x3000, 0x1000, true, some "/bin/ship"⟩ 0x2800 := by
  have listed : Listed moored := listed_of_before (by decide) (by decide)
  have gathered := images_gathered listed
  refine ⟨listed, gathered.1,
    gathered.2.1 _ (by decide +kernel) _ (by decide) (by decide +kernel),
    gathered.2.2 _ (image_ofMappings _) _ (by decide) ?_ _ (by decide)⟩
  rintro path foreign ⟨first, here, -, -, own, -, -, below, -⟩
  simp only [moored, List.mem_cons, List.not_mem_nil, or_false] at here
  rcases here with rfl | rfl | rfl | rfl
  · exact foreign own
  all_goals exact absurd below (by decide)

/-- The image of the ship reaches over the crane, and is found where the crane is mapped. -/
theorem images_overlap : Listed woven ∧
    (⟨"/bin/ship", 0x1000, 0x3000⟩ : Image) ∈ Image.ofMappings woven ∧
      ∃ crane ∈ woven, ¬ crane.Of "/bin/ship" ∧ crane.Covers 0x2800 ∧
        (⟨"/bin/ship", 0x1000, 0x3000⟩ : Image).Covers 0x2800 ∧
          ((Roster.ofMappings woven).moduleAt? 0x2800).map (·.path) = some "/bin/ship" := by
  refine ⟨listed_of_before (by decide) (by decide), by decide +kernel,
    ⟨0x2000, 0x3000, 0, true, some "/lib/crane"⟩, by decide, by decide +kernel, by decide,
    ⟨by decide, by decide⟩, by decide +kernel⟩

end SourceDebugger
