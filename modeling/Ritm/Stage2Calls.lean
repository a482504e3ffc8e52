import Ritm.Stage2Order
/-!
# Stage2Calls — what each configuration call answers

A builder is what the calls it accepted say (`Records`), however many others failed in between.  So a lookup is a scan of
the handler regions accepted so far, a call is accepted exactly when its range is free, and a refused one changes nothing.
The error a refused call returns says why, with one exception: `handle_range` reports a clash with an allowed range as
one between two allowed ranges.
-/
namespace Ritm

open Lib (ArrayVec)

variable {σ : Type}

/-- **What is relied on**: a failed `map_range` leaves the table as it was. -/
class AtomicIdMap (M : Type) [IdMap M] : Prop where
  mapRange_error {m : M} {r : MemoryRegion} {a : Stage2Attributes} {e : MapError}
    (h : (IdMap.mapRange m r a).1 = .error e) : (IdMap.mapRange m r a).2 = m

instance : AtomicIdMap RegionTable where
  mapRange_error {m r a e} h := by
    simp only [IdMap.mapRange] at h ⊢
    split at h
    · cases h
    · rename_i hr
      rw [if_neg hr]

theorem Stage2Range.disjoint_iff (r s : Stage2Range) : r.Disjoint s ↔ ∀ ipa, r.Contains ipa → ¬ s.Contains ipa := by
  constructor
  · intro h ipa hr
    exact h.not_contains hr
  · intro h
    have hr := r.base_lt_end
    have hs := s.base_lt_end
    have h₁ := h r.baseIpa
    have h₂ := h s.baseIpa
    unfold Contains at h₁ h₂
    unfold Disjoint
    omega

namespace Stage2Request

def baseIpa : Stage2Request σ → U64
  | .allowRange baseIpa .. => baseIpa
  | .handleRange baseIpa .. => baseIpa

def size : Stage2Request σ → U64
  | .allowRange _ size _ => size
  | .handleRange _ size _ => size

def isAllow : Stage2Request σ → Bool
  | .allowRange .. => true
  | .handleRange .. => false

def Covers (x : Stage2Request σ) (ipa : U64) : Prop :=
  x.baseIpa.toNat ≤ ipa.toNat ∧ ipa.toNat < x.baseIpa.toNat + x.size.toNat

instance (x : Stage2Request σ) (ipa : U64) : Decidable (x.Covers ipa) := inferInstanceAs (Decidable (_ ∧ _))

theorem range_eq_new (x : Stage2Request σ) : x.range = (Stage2Range.new x.baseIpa x.size).toOption := by
  cases x <;> rfl

theorem covers_iff {x : Stage2Request σ} {r : Stage2Range} (h : x.range = some r) (ipa : U64) :
    x.Covers ipa ↔ r.Contains ipa := by
  rw [range_eq_new, Stage2Builder.toOption_eq_some] at h
  obtain ⟨hb, hs⟩ := Stage2Range.new_ok h
  unfold Covers Stage2Range.Contains
  rw [← hb, ← hs, r.end_eq]

theorem apart_iff_covers {x y : Stage2Request σ} {r s : Stage2Range} (hx : x.range = some r) (hy : y.range = some s) :
    Apart y x ↔ ∀ ipa, x.Covers ipa → ¬ y.Covers ipa := by
  have hdis : Apart y x ↔ s.Disjoint r := by
    constructor
    · intro h
      exact h s r hy hx
    · intro h s' r' hs' hr'
      rw [hy] at hs'
      rw [hx] at hr'
      cases hs'
      cases hr'
      exact h
  rw [hdis, Stage2Range.disjoint_iff]
  refine forall_congr' fun ipa => ?_
  rw [covers_iff hx, covers_iff hy]
  exact ⟨fun h hr hs => h hs hr, fun h hs hr => h hr hs⟩

end Stage2Request

open Stage2Request

def accepted : List (Stage2Request σ) → List (Except Stage2ConfigError Unit) → List (Stage2Request σ)
  | x :: reqs, .ok _ :: results => x :: accepted reqs results
  | _ :: reqs, .error _ :: results => accepted reqs results
  | _, _ => []

/-- **A call that the calls accepted before it leave free**: its range is valid and shares no address with theirs, and
there is room for one more of its kind. -/
structure Free (pre : List (Stage2Request σ)) (x : Stage2Request σ) : Prop where
  valid : ValidRange x.baseIpa x.size
  apart : ∀ y ∈ pre, ∀ ipa, x.Covers ipa → ¬ y.Covers ipa
  room : if x.isAllow then pre.countP isAllow < 32 else pre.countP (fun y => !y.isAllow) < 16

/-- The handler region an IPA lies in, looking at each in the order they were registered. -/
def scanRegions (calls : List (Stage2Request σ)) (ipa : U64) : Option (MemoryAccessHandlerMatch σ) :=
  ((handleParts calls).find? (fun g => decide (g.Contains ipa))).map (fun g => ⟨g, g.offsetOf ipa⟩)

/-- The match is a region registered by one of the calls, with that call's handler, and no other holds the IPA. -/
structure IsMatch (calls : List (Stage2Request σ)) (ipa : U64) (m : MemoryAccessHandlerMatch σ) : Prop where
  registered : .handleRange m.region.baseIpa m.region.size m.region.handler ∈ calls
  only : (handleParts calls).filter (fun g => decide (g.Contains ipa)) = [m.region]
  base_le : m.region.baseIpa.toNat ≤ ipa.toNat
  offset_eq : m.offset.toNat = ipa.toNat - m.region.baseIpa.toNat
  offset_lt : m.offset.toNat < m.region.size.toNat

namespace Stage2Builder

variable {M : Type} [IdMap M]

/-! ## What a builder records -/

structure Records (pre : List (Stage2Request σ)) (b : Stage2Builder M σ) : Prop extends Holds pre b where
  valid : ∀ x ∈ pre, ∃ r, x.range = some r

theorem apply_error_ranges {b b' : Stage2Builder M σ} (hord : b.memoryAccessHandlers.Ordered) {x : Stage2Request σ}
    {e : Stage2ConfigError} (h : b.apply x = some (.error e, b')) :
    b'.allowedRanges = b.allowedRanges ∧ b'.memoryAccessHandlers = b.memoryAccessHandlers := by
  cases x with
  | allowRange baseIpa size attributes =>
    obtain ⟨e, -, hr⟩ | ⟨range, -, ⟨e, m, -, hr⟩ | ⟨m, allowed, -, -, hr⟩⟩ :=
      b.allowRange_cases baseIpa size attributes <;> cases hr.symm.trans h
    · exact ⟨rfl, rfl⟩
    · exact ⟨rfl, rfl⟩
  | handleRange baseIpa size handler =>
    obtain ⟨e, -, hr⟩ | ⟨range, -, ⟨-, hr⟩ | ⟨-, hr⟩ | ⟨-, -, registry, -, -, hr⟩⟩ :=
      b.handleRange_cases hord baseIpa size handler <;> cases hr.symm.trans h <;> exact ⟨rfl, rfl⟩

theorem apply_ok_range {b b' : Stage2Builder M σ} (hord : b.memoryAccessHandlers.Ordered) {x : Stage2Request σ}
    (h : b.apply x = some (.ok (), b')) : ∃ r, x.range = some r := by
  cases x with
  | allowRange baseIpa size attributes =>
    obtain ⟨range, m, allowed, hc, -, -, -⟩ := allowRange_ok h
    exact ⟨range, range_allowRange attributes (checkAllow_ok.1 hc).1⟩
  | handleRange baseIpa size handler =>
    obtain ⟨range, registry, hc, -, -, -, -, -⟩ := handleRange_ok hord h
    exact ⟨range, range_handleRange handler (checkHandle_ok.1 hc).1⟩

theorem records_new : Records [] (new : Stage2Builder M σ) := ⟨holds_new, fun _ h => by cases h⟩

theorem Records.apply_error {pre : List (Stage2Request σ)} {b b' : Stage2Builder M σ} (hb : Records pre b)
    {x : Stage2Request σ} {e : Stage2ConfigError} (h : b.apply x = some (.error e, b')) : Records pre b' := by
  obtain ⟨hall, hreg⟩ := apply_error_ranges hb.ordered h
  exact ⟨⟨by rw [hall]; exact hb.allowed, by rw [hreg]; exact hb.ordered, by rw [hreg]; exact hb.regions⟩, hb.valid⟩

theorem Records.apply_ok {pre : List (Stage2Request σ)} {b b' : Stage2Builder M σ} (hb : Records pre b)
    {x : Stage2Request σ} (h : b.apply x = some (.ok (), b')) : Records (pre ++ [x]) b' := by
  refine ⟨hb.toHolds.apply h, fun y hy => ?_⟩
  rcases List.mem_append.1 hy with hy | hy
  · exact hb.valid y hy
  · rw [List.mem_singleton.1 hy]
    exact apply_ok_range hb.ordered h

theorem Records.applyAll : ∀ (reqs : List (Stage2Request σ)) {pre : List (Stage2Request σ)} {b b' : Stage2Builder M σ}
    {results : List (Except Stage2ConfigError Unit)}, Records pre b → b.applyAll reqs = some (results, b') →
      Records (pre ++ accepted reqs results) b'
  | [], pre, b, b', results, hb, h => by
    cases h
    simpa [accepted] using hb
  | x :: reqs, pre, b, b', results, hb, h => by
    rw [Stage2Builder.applyAll] at h
    split at h
    · cases h
    rename_i result b₁ hx
    obtain ⟨⟨rs, b₂⟩, hrs, heq⟩ := Option.map_eq_some_iff.1 h
    cases heq
    cases result with
    | error e => exact Records.applyAll reqs (hb.apply_error hx) hrs
    | ok u =>
      have := Records.applyAll reqs (hb.apply_ok hx) hrs
      simpa [accepted] using this

/-- **Every sequence of calls runs, and the builder records the ones that succeeded.** -/
theorem applyAll_records (reqs : List (Stage2Request σ)) :
    ∃ results b, (new : Stage2Builder M σ).applyAll reqs = some (results, b) ∧ b.Inv ∧
      Records (accepted reqs results) b := by
  obtain ⟨results, b, h, -, hinv⟩ := applyAll_inv reqs (inv_new (M := M) (σ := σ))
  exact ⟨results, b, h, hinv, Records.applyAll reqs records_new h⟩

/-! ## Lookups -/

theorem filter_eq_singleton {α : Type} {p : α → Bool} {l : List α} (hp : l.Pairwise (fun a b => ¬ (p a = true ∧ p b = true)))
    {a : α} (ha : a ∈ l) (hpa : p a = true) : l.filter p = [a] := by
  induction l with
  | nil => cases ha
  | cons b l ih =>
    obtain ⟨hb, hl⟩ := List.pairwise_cons.1 hp
    rcases List.mem_cons.1 ha with rfl | ha
    · rw [List.filter_cons_of_pos hpa, List.filter_eq_nil_iff.2]
      intro c hc hpc
      exact hb c hc ⟨hpa, hpc⟩
    · rw [List.filter_cons_of_neg (fun hpb => hb a ha ⟨hpb, hpa⟩), ih hl ha]

omit [IdMap M] in
theorem Records.filter_regions {pre : List (Stage2Request σ)} {b : Stage2Builder M σ} (hb : Records pre b) {ipa : U64}
    {g : MemoryAccessRegion σ} (hg : g ∈ b.memoryAccessHandlers.regions.items) (hin : g.Contains ipa) :
    (handleParts pre).filter (fun g => decide (g.Contains ipa)) = [g] := by
  have hpair : b.memoryAccessHandlers.regions.items.Pairwise
      (fun a b => ¬ (decide (a.Contains ipa) = true ∧ decide (b.Contains ipa) = true)) :=
    hb.ordered.imp fun {a b} hab => by
      simp only [decide_eq_true_eq]
      rintro ⟨ha, hb⟩
      unfold Stage2Range.Contains at ha hb
      omega
  have h := hb.regions.filter (fun g => decide (g.Contains ipa))
  rw [filter_eq_singleton hpair hg (decide_eq_true hin)] at h
  exact (List.perm_singleton.1 h.symm)

theorem mem_handleParts {pre : List (Stage2Request σ)} {g : MemoryAccessRegion σ} (h : g ∈ handleParts pre) :
    .handleRange g.baseIpa g.size g.handler ∈ pre := by
  obtain ⟨y, hy, hyg⟩ := List.mem_filterMap.1 h
  cases y with
  | allowRange baseIpa size attributes => cases hyg
  | handleRange baseIpa size handler =>
    obtain ⟨r, hr, rfl⟩ := Option.map_eq_some_iff.1 hyg
    obtain ⟨rfl, rfl⟩ := Stage2Range.new_ok (toOption_eq_some.1 hr)
    exact hy

omit [IdMap M] in
theorem Records.find_eq_some_iff {pre : List (Stage2Request σ)} {b : Stage2Builder M σ} (hb : Records pre b) (ipa : U64)
    (m : MemoryAccessHandlerMatch σ) : b.memoryAccessHandlers.find ipa = some m ↔ IsMatch pre ipa m := by
  rw [MemoryAccessHandlerRegistry.find_eq_some_iff hb.ordered]
  have hend := m.region.end_eq
  constructor
  · rintro ⟨hmem, hin, hoff⟩
    have hoff' : m.offset.toNat = ipa.toNat - m.region.baseIpa.toNat := by
      rw [hoff, MemoryAccessRegion.toNat_offsetOf hin.1]
    refine ⟨mem_handleParts (hb.regions.mem_iff.1 hmem), hb.filter_regions hmem hin, hin.1, hoff', ?_⟩
    unfold Stage2Range.Contains at hin
    omega
  · intro h
    have hmem : m.region ∈ (handleParts pre).filter (fun g => decide (g.Contains ipa)) := by
      rw [h.only]
      exact List.mem_singleton.2 rfl
    obtain ⟨hmem, hin⟩ := List.mem_filter.1 hmem
    have hin := of_decide_eq_true hin
    exact ⟨hb.regions.mem_iff.2 hmem, hin, BitVec.eq_of_toNat_eq (by
      rw [h.offset_eq, MemoryAccessRegion.toNat_offsetOf hin.1])⟩

omit [IdMap M] in
theorem Records.find_eq_none_iff {pre : List (Stage2Request σ)} {b : Stage2Builder M σ} (hb : Records pre b) (ipa : U64) :
    b.memoryAccessHandlers.find ipa = none ↔ ∀ g ∈ handleParts pre, ¬ g.Contains ipa := by
  rw [MemoryAccessHandlerRegistry.find_eq_none_iff hb.ordered]
  exact forall_congr' fun g => by rw [hb.regions.mem_iff]

omit [IdMap M] in
theorem Records.find_eq_scan {pre : List (Stage2Request σ)} {b : Stage2Builder M σ} (hb : Records pre b) (ipa : U64) :
    b.memoryAccessHandlers.find ipa = scanRegions pre ipa := by
  unfold scanRegions
  cases hf : b.memoryAccessHandlers.find ipa with
  | none =>
    have hnone := (hb.find_eq_none_iff ipa).1 hf
    rw [List.find?_eq_none.2 fun g hg hc => hnone g hg (of_decide_eq_true hc)]
    rfl
  | some m =>
    obtain ⟨hmem, hin, hoff⟩ := (MemoryAccessHandlerRegistry.find_eq_some_iff hb.ordered ipa m).1 hf
    rw [← List.head?_filter, hb.filter_regions hmem hin]
    simp only [List.head?_cons, Option.map_some, ← hoff]

/-- **A lookup is exact**, whatever calls were made: it agrees with a scan of the regions registered so far, finds the
one region the IPA lies in, and nothing if there is none. -/
theorem find_exact (reqs : List (Stage2Request σ)) :
    ∃ results b, (new : Stage2Builder M σ).applyAll reqs = some (results, b) ∧ ∀ ipa,
      b.memoryAccessHandlers.find ipa = scanRegions (accepted reqs results) ipa ∧
      (∀ m, b.memoryAccessHandlers.find ipa = some m ↔ IsMatch (accepted reqs results) ipa m) ∧
      (b.memoryAccessHandlers.find ipa = none ↔ ∀ g ∈ handleParts (accepted reqs results),
        ¬ (g.baseIpa.toNat ≤ ipa.toNat ∧ ipa.toNat < g.baseIpa.toNat + g.size.toNat)) := by
  obtain ⟨results, b, h, -, hb⟩ := applyAll_records (M := M) reqs
  refine ⟨results, b, h, fun ipa => ⟨hb.find_eq_scan ipa, hb.find_eq_some_iff ipa, ?_⟩⟩
  rw [hb.find_eq_none_iff]
  refine forall₂_congr fun g _ => ?_
  rw [← g.end_eq]
  rfl

def adjacentRegions : List (Stage2Request Unit) :=
  [.allowRange 0 0x1000 1, .handleRange 0x2000 0x1000 ⟨none, none⟩, .handleRange 0x1000 0x2000 ⟨none, none⟩,
    .handleRange 0x1000 0x1000 ⟨none, none⟩]

theorem find_exact_adjacentRegions :
    ∃ results b, (new : Stage2Builder RegionTable Unit).applyAll adjacentRegions = some (results, b) ∧ ∀ ipa,
      b.memoryAccessHandlers.find ipa = scanRegions (accepted adjacentRegions results) ipa ∧
      (∀ m, b.memoryAccessHandlers.find ipa = some m ↔ IsMatch (accepted adjacentRegions results) ipa m) ∧
      (b.memoryAccessHandlers.find ipa = none ↔ ∀ g ∈ handleParts (accepted adjacentRegions results),
        ¬ (g.baseIpa.toNat ≤ ipa.toNat ∧ ipa.toNat < g.baseIpa.toNat + g.size.toNat)) :=
  find_exact adjacentRegions

/-! ## Acceptance -/

theorem length_filterMap_eq_countP {α β : Type} (f : α → Option β) (p : α → Bool) :
    ∀ {l : List α}, (∀ x ∈ l, (f x).isSome = p x) → (l.filterMap f).length = l.countP p
  | [], _ => rfl
  | x :: l, h => by
    have ih := length_filterMap_eq_countP f p fun y hy => h y (List.mem_cons_of_mem _ hy)
    have hx := h x List.mem_cons_self
    cases hf : f x with
    | none =>
      rw [hf, Option.isSome_none] at hx
      rw [List.filterMap_cons_none hf, List.countP_cons_of_neg (by simp [← hx]), ih]
    | some y =>
      rw [hf, Option.isSome_some] at hx
      rw [List.filterMap_cons_some hf, List.countP_cons_of_pos hx.symm, List.length_cons, ih]

omit [IdMap M] in
theorem Records.length_allowed {pre : List (Stage2Request σ)} {b : Stage2Builder M σ} (hb : Records pre b) :
    b.allowedRanges.items.length = pre.countP isAllow := by
  rw [hb.allowed, List.length_map, allowParts]
  refine length_filterMap_eq_countP allowPart isAllow fun x hx => ?_
  obtain ⟨r, hr⟩ := hb.valid x hx
  cases x with
  | allowRange baseIpa size attributes =>
    rw [range] at hr
    simp [allowPart, isAllow, hr]
  | handleRange baseIpa size handler => rfl

omit [IdMap M] in
theorem Records.length_regions {pre : List (Stage2Request σ)} {b : Stage2Builder M σ} (hb : Records pre b) :
    b.memoryAccessHandlers.regions.items.length = pre.countP (fun y => !y.isAllow) := by
  rw [hb.regions.length_eq, handleParts]
  refine length_filterMap_eq_countP handlePart (fun y => !y.isAllow) fun x hx => ?_
  obtain ⟨r, hr⟩ := hb.valid x hx
  cases x with
  | allowRange baseIpa size attributes => rfl
  | handleRange baseIpa size handler =>
    rw [range] at hr
    simp [handlePart, isAllow, hr]

omit [IdMap M] in
theorem Records.apart_iff {pre : List (Stage2Request σ)} {b : Stage2Builder M σ} (hb : Records pre b)
    {x : Stage2Request σ} {r : Stage2Range} (hx : x.range = some r) :
    (∀ y ∈ pre, ∀ ipa, x.Covers ipa → ¬ y.Covers ipa) ↔
      (∀ s ∈ b.allowedRanges.items, r.Disjoint s) ∧
        ∀ g ∈ b.memoryAccessHandlers.regions.items, r.Disjoint g.toStage2Range := by
  have hapart : (∀ y ∈ pre, ∀ ipa, x.Covers ipa → ¬ y.Covers ipa) ↔ ∀ y ∈ pre, Apart y x :=
    forall₂_congr fun y hy => by
      obtain ⟨s, hs⟩ := hb.valid y hy
      rw [apart_iff_covers hx hs]
  rw [hapart, apart_iff_disjoint hx, hb.disjoint_allowed r]
  exact and_congr_right fun _ => forall_congr' fun g => by rw [hb.regions.mem_iff]

omit [IdMap M] in
theorem Records.checkAllow_iff {pre : List (Stage2Request σ)} {b : Stage2Builder M σ} (hb : Records pre b)
    (baseIpa size : U64) (attributes : Stage2Attributes) :
    (∃ r, b.checkAllow baseIpa size = .ok r) ↔ Free pre (.allowRange baseIpa size attributes) := by
  constructor
  · rintro ⟨r, hc⟩
    obtain ⟨hnew, hroom, hall, hreg⟩ := checkAllow_ok.1 hc
    refine ⟨(Stage2Range.new_ok_iff _ _).1 ⟨r, hnew⟩, ?_, ?_⟩
    · exact (hb.apart_iff (range_allowRange attributes hnew)).2 ⟨hall, fun g hg => (hreg g hg).symm⟩
    · rw [hb.length_allowed] at hroom
      exact hroom
  · rintro ⟨hvalid, hapart, hroom⟩
    obtain ⟨r, hnew⟩ := (Stage2Range.new_ok_iff _ _).2 hvalid
    obtain ⟨hall, hreg⟩ := (hb.apart_iff (range_allowRange attributes hnew)).1 hapart
    refine ⟨r, checkAllow_ok.2 ⟨hnew, ?_, hall, fun g hg => (hreg g hg).symm⟩⟩
    rw [hb.length_allowed]
    exact hroom

omit [IdMap M] in
theorem Records.handleRange_ok_iff {pre : List (Stage2Request σ)} {b : Stage2Builder M σ} (hb : Records pre b)
    (baseIpa size : U64) (handler : MemoryAccessHandler σ) :
    (∃ b', b.handleRange baseIpa size handler = some (.ok (), b')) ↔ Free pre (.handleRange baseIpa size handler) := by
  constructor
  · rintro ⟨b', h⟩
    obtain ⟨r, registry, hc, hroom, hreg, -, -, -⟩ := handleRange_ok hb.ordered h
    obtain ⟨hnew, hall⟩ := checkHandle_ok.1 hc
    refine ⟨(Stage2Range.new_ok_iff _ _).1 ⟨r, hnew⟩, ?_, ?_⟩
    · exact (hb.apart_iff (range_handleRange handler hnew)).2 ⟨hall, hreg⟩
    · rw [hb.length_regions] at hroom
      exact hroom
  · rintro ⟨hvalid, hapart, hroom⟩
    obtain ⟨r, hnew⟩ := (Stage2Range.new_ok_iff _ _).2 hvalid
    obtain ⟨hall, hreg⟩ := (hb.apart_iff (range_handleRange handler hnew)).1 hapart
    refine handleRange_of_disjoint hb.ordered handler (checkHandle_ok.2 ⟨hnew, hall⟩) ?_ hreg
    rw [hb.length_regions]
    exact hroom

def TableTakes (b : Stage2Builder M σ) : Stage2Request σ → Prop
  | .allowRange baseIpa size attributes => (IdMap.mapRange b.idmap ⟨baseIpa, baseIpa + size⟩ attributes).1 = .ok ()
  | .handleRange .. => True

theorem Records.allowRange_ok_iff {pre : List (Stage2Request σ)} {b : Stage2Builder M σ} (hb : Records pre b)
    (baseIpa size : U64) (attributes : Stage2Attributes) :
    (∃ b', b.allowRange baseIpa size attributes = some (.ok (), b')) ↔
      Free pre (.allowRange baseIpa size attributes) ∧
        (IdMap.mapRange b.idmap ⟨baseIpa, baseIpa + size⟩ attributes).1 = .ok () := by
  rw [← hb.checkAllow_iff]
  constructor
  · rintro ⟨b', h⟩
    obtain ⟨r, m, allowed, hc, hm, -, -⟩ := allowRange_ok h
    refine ⟨⟨r, hc⟩, ?_⟩
    rw [← Stage2Range.endIpa_eq (checkAllow_ok.1 hc).1, hm]
  · rintro ⟨⟨r, hc⟩, hm⟩
    rw [← Stage2Range.endIpa_eq (checkAllow_ok.1 hc).1] at hm
    exact allowRange_of_mapRange_ok hc hm

theorem Records.apply_ok_iff {pre : List (Stage2Request σ)} {b : Stage2Builder M σ} (hb : Records pre b)
    (x : Stage2Request σ) : (∃ b', b.apply x = some (.ok (), b')) ↔ Free pre x ∧ b.TableTakes x := by
  cases x with
  | allowRange baseIpa size attributes => exact hb.allowRange_ok_iff baseIpa size attributes
  | handleRange baseIpa size handler =>
    rw [show b.TableTakes (.handleRange baseIpa size handler) = True from rfl, and_true]
    exact hb.handleRange_ok_iff baseIpa size handler

theorem apply_error_eq [AtomicIdMap M] {b b' : Stage2Builder M σ} (hord : b.memoryAccessHandlers.Ordered)
    {x : Stage2Request σ} {e : Stage2ConfigError} (h : b.apply x = some (.error e, b')) : b' = b := by
  cases x with
  | allowRange baseIpa size attributes =>
    obtain ⟨e, -, hr⟩ | ⟨range, -, ⟨e, m, hm, hr⟩ | ⟨m, allowed, -, -, hr⟩⟩ :=
      b.allowRange_cases baseIpa size attributes <;> cases hr.symm.trans h
    · rfl
    · have := AtomicIdMap.mapRange_error (congrArg Prod.fst hm)
      rw [hm] at this
      rw [show m = b.idmap from this]
  | handleRange baseIpa size handler =>
    obtain ⟨e, -, hr⟩ | ⟨range, -, ⟨-, hr⟩ | ⟨-, hr⟩ | ⟨-, -, registry, -, -, hr⟩⟩ :=
      b.handleRange_cases hord baseIpa size handler <;> cases hr.symm.trans h <;> rfl

/-- **Acceptance is exact and failure is atomic**: after any calls, a call succeeds exactly when its range is free and
the page table takes it, and one that fails leaves the builder as it was. -/
theorem apply_exact [AtomicIdMap M] (reqs : List (Stage2Request σ)) :
    ∃ results b, (new : Stage2Builder M σ).applyAll reqs = some (results, b) ∧ ∀ x, ∃ result b',
      b.apply x = some (result, b') ∧
      (result = .ok () ↔ Free (accepted reqs results) x ∧ b.TableTakes x) ∧
      ∀ e, result = .error e → b' = b := by
  obtain ⟨results, b, h, hinv, hb⟩ := applyAll_records (M := M) reqs
  refine ⟨results, b, h, fun x => ?_⟩
  obtain ⟨result, b', hx, -⟩ := apply_inv hinv x
  refine ⟨result, b', hx, ?_, fun e he => apply_error_eq hb.ordered (he ▸ hx)⟩
  rw [← hb.apply_ok_iff, hx]
  constructor
  · rintro rfl
    exact ⟨b', rfl⟩
  · rintro ⟨b'', h'⟩
    cases h'
    rfl

theorem apply_exact_adjacentRegions :
    ∃ results b, (new : Stage2Builder RegionTable Unit).applyAll adjacentRegions = some (results, b) ∧ ∀ x,
      ∃ result b', b.apply x = some (result, b') ∧
      (result = .ok () ↔ Free (accepted adjacentRegions results) x ∧ b.TableTakes x) ∧
      ∀ e, result = .error e → b' = b :=
  apply_exact adjacentRegions

end Stage2Builder

/-! ## Errors -/

def Stage2Request.Meets (x : Stage2Request σ) (r : Stage2Range) : Prop := ∃ ipa, x.Covers ipa ∧ r.Contains ipa

theorem Stage2Request.meets_iff {x : Stage2Request σ} {range : Stage2Range} (hx : x.range = some range)
    (r : Stage2Range) : x.Meets r ↔ ¬ range.Disjoint r := by
  rw [Stage2Range.disjoint_iff]
  simp only [Meets, covers_iff hx, not_forall, not_not, exists_prop]

/-- **What each error is documented to mean**, of a call on a builder.  An address the page table's API cannot represent
is one that is no `usize`. -/
def Stage2ConfigError.Documented {M : Type} [IdMap M] (b : Stage2Builder M σ) (x : Stage2Request σ) :
    Stage2ConfigError → Prop
  | .rangeBaseNotPageAligned => x.baseIpa.toNat % pageSize ≠ 0
  | .emptyRange => x.size = 0
  | .rangeSizeNotPageMultiple => x.size.toNat % pageSize ≠ 0
  | .rangeEndOverflow => 2 ^ 64 ≤ x.baseIpa.toNat + x.size.toNat
  | .rangeAddressNotRepresentable => 2 ^ 64 ≤ x.baseIpa.toNat + x.size.toNat
  | .tooManyAllowedRanges => x.isAllow = true ∧ maxAllowedRanges ≤ b.allowedRanges.items.length
  | .tooManyMemoryAccessHandlerRegions =>
    x.isAllow = false ∧ maxMemoryAccessHandlers ≤ b.memoryAccessHandlers.regions.items.length
  | .allowedRangeOverlap => x.isAllow = true ∧ ∃ r ∈ b.allowedRanges.items, x.Meets r
  | .memoryAccessHandlerRangeOverlap =>
    x.isAllow = false ∧ ∃ g ∈ b.memoryAccessHandlers.regions.items, x.Meets g.toStage2Range
  | .allowedRangeOverlapsMemoryAccessHandler =>
    x.isAllow = true ∧ (∃ g ∈ b.memoryAccessHandlers.regions.items, x.Meets g.toStage2Range) ∨
      x.isAllow = false ∧ ∃ r ∈ b.allowedRanges.items, x.Meets r
  | .mapRange e => ∃ baseIpa size attributes, x = .allowRange baseIpa size attributes ∧
      (IdMap.mapRange b.idmap ⟨baseIpa, baseIpa + size⟩ attributes).1 = .error e

namespace Stage2Builder

variable {M : Type}

theorem bind_error {α β γ : Type} {x : Except α γ} {f : γ → Except α β} {e : α} :
    (x >>= f) = .error e ↔ x = .error e ∨ ∃ a, x = .ok a ∧ f a = .error e := by
  cases x <;> simp [bind, Except.bind]

theorem new_error {baseIpa size : U64} {e : Stage2ConfigError} (h : Stage2Range.new baseIpa size = .error e) :
    ¬ ValidRange baseIpa size ∧
      (e = .rangeBaseNotPageAligned ∧ baseIpa.toNat % pageSize ≠ 0 ∨ e = .emptyRange ∧ size = 0 ∨
        e = .rangeSizeNotPageMultiple ∧ size.toNat % pageSize ≠ 0 ∨
        e = .rangeEndOverflow ∧ 2 ^ 64 ≤ baseIpa.toNat + size.toNat) := by
  refine ⟨fun hv => ?_, ?_⟩
  · obtain ⟨r, hr⟩ := (Stage2Range.new_ok_iff _ _).2 hv
    rw [hr] at h
    cases h
  · unfold Stage2Range.new validateRange checkedRangeEnd at h
    grind

theorem checkNoAllowedOverlap_error {b : Stage2Builder M σ} {range : Stage2Range} {e : Stage2ConfigError}
    (h : b.checkNoAllowedOverlap range = .error e) :
    e = .allowedRangeOverlap ∧ ∃ r ∈ b.allowedRanges.items, ¬ range.Disjoint r := by
  have hne : ¬ ∀ r ∈ b.allowedRanges.items, range.Disjoint r := fun hall => by
    rw [checkNoAllowedOverlap_ok.2 hall] at h
    cases h
  refine ⟨?_, by simpa using hne⟩
  unfold checkNoAllowedOverlap at h
  split at h <;> cases h
  rfl

theorem checkNoRegisteredOverlap_error {b : Stage2Builder M σ} {range : Stage2Range} {e : Stage2ConfigError}
    (h : b.checkNoRegisteredOverlap range = .error e) :
    e = .allowedRangeOverlapsMemoryAccessHandler ∧
      ∃ g ∈ b.memoryAccessHandlers.regions.items, ¬ range.Disjoint g.toStage2Range := by
  have hne : ¬ ∀ g ∈ b.memoryAccessHandlers.regions.items, range.Disjoint g.toStage2Range := fun hall => by
    rw [checkNoRegisteredOverlap_ok.2 fun g hg => (hall g hg).symm] at h
    cases h
  refine ⟨?_, by simpa using hne⟩
  unfold checkNoRegisteredOverlap at h
  split at h <;> cases h
  rfl

theorem handleRange_meets_allowed {b : Stage2Builder M σ} {baseIpa size : U64} {handler : MemoryAccessHandler σ}
    (hv : ValidRange baseIpa size) {r : Stage2Range} (hr : r ∈ b.allowedRanges.items)
    (hmeets : (Stage2Request.handleRange baseIpa size handler).Meets r) :
    b.handleRange baseIpa size handler = some (.error .allowedRangeOverlap, b) := by
  obtain ⟨range, hnew⟩ := (Stage2Range.new_ok_iff _ _).2 hv
  have hnd := (meets_iff (range_handleRange handler hnew) r).1 hmeets
  have hall : b.checkNoAllowedOverlap range = .error .allowedRangeOverlap := by
    cases hc : b.checkNoAllowedOverlap range with
    | ok u => exact absurd (checkNoAllowedOverlap_ok.1 hc r hr) hnd
    | error e => rw [(checkNoAllowedOverlap_error hc).1]
  have hc : b.checkHandle baseIpa size = .error .allowedRangeOverlap := by
    unfold checkHandle
    rw [hnew]
    simp only [bind, Except.bind, hall]
  unfold handleRange
  rw [hc]

variable [IdMap M]

/-- The only thing against the call is a stored range of the other kind. -/
def ClashesAcross (b : Stage2Builder M σ) (x : Stage2Request σ) : Prop :=
  ValidRange x.baseIpa x.size ∧
    if x.isAllow then b.allowedRanges.items.length < maxAllowedRanges ∧ (∀ r ∈ b.allowedRanges.items, ¬ x.Meets r) ∧
      ∃ g ∈ b.memoryAccessHandlers.regions.items, x.Meets g.toStage2Range
    else b.memoryAccessHandlers.regions.items.length < maxMemoryAccessHandlers ∧
      (∀ g ∈ b.memoryAccessHandlers.regions.items, ¬ x.Meets g.toStage2Range) ∧ ∃ r ∈ b.allowedRanges.items, x.Meets r

/-- The error says what is wrong; a clash with a range of the other kind is named as such, so by the same error whichever
of the two ranges came first. -/
def ReportsCause (b : Stage2Builder M σ) (x : Stage2Request σ) (e : Stage2ConfigError) : Prop :=
  e.Documented b x ∧ (b.ClashesAcross x → e = .allowedRangeOverlapsMemoryAccessHandler)

theorem new_error_reportsCause (b : Stage2Builder M σ) (x : Stage2Request σ) {e : Stage2ConfigError}
    (h : Stage2Range.new x.baseIpa x.size = .error e) : b.ReportsCause x e := by
  obtain ⟨hv, hcause⟩ := new_error h
  refine ⟨?_, fun hclash => absurd hclash.1 hv⟩
  rcases hcause with ⟨rfl, hc⟩ | ⟨rfl, hc⟩ | ⟨rfl, hc⟩ | ⟨rfl, hc⟩ <;> exact hc

theorem checkAllow_error {b : Stage2Builder M σ} {baseIpa size : U64} {attributes : Stage2Attributes}
    {e : Stage2ConfigError} (h : b.checkAllow baseIpa size = .error e) :
    b.ReportsCause (.allowRange baseIpa size attributes) e := by
  unfold checkAllow at h
  rcases bind_error.1 h with hnew | ⟨range, hnew, h⟩
  · exact new_error_reportsCause b _ hnew
  have hmeets := meets_iff (range_allowRange (σ := σ) attributes hnew)
  rcases bind_error.1 h with hcap | ⟨-, hcap, h⟩
  · have hfull : ¬ b.allowedRanges.items.length < maxAllowedRanges := fun hroom => by
      rw [checkAllowedRangeCapacity_ok.2 hroom] at hcap
      cases hcap
    unfold checkAllowedRangeCapacity at hcap
    split at hcap <;> cases hcap
    exact ⟨⟨rfl, by omega⟩, fun hclash => absurd hclash.2.1 hfull⟩
  rcases bind_error.1 h with hall | ⟨-, hall, h⟩
  · obtain ⟨rfl, r, hr, hnd⟩ := checkNoAllowedOverlap_error hall
    exact ⟨⟨rfl, r, hr, (hmeets r).2 hnd⟩, fun hclash => absurd ((hmeets r).2 hnd) (hclash.2.2.1 r hr)⟩
  rcases bind_error.1 h with hreg | ⟨-, hreg, h⟩
  · obtain ⟨rfl, g, hg, hnd⟩ := checkNoRegisteredOverlap_error hreg
    exact ⟨.inl ⟨rfl, g, hg, (hmeets g.toStage2Range).2 hnd⟩, fun _ => rfl⟩
  · cases h

theorem allowRange_reportsCause {b b' : Stage2Builder M σ} {baseIpa size : U64} {attributes : Stage2Attributes}
    {e : Stage2ConfigError} (h : b.allowRange baseIpa size attributes = some (.error e, b')) :
    b.ReportsCause (.allowRange baseIpa size attributes) e := by
  obtain ⟨e, hc, hr⟩ | ⟨range, hc, ⟨e, m, hm, hr⟩ | ⟨m, allowed, -, -, hr⟩⟩ :=
    b.allowRange_cases baseIpa size attributes <;> cases hr.symm.trans h
  · exact checkAllow_error hc
  · obtain ⟨hnew, -, -, hreg⟩ := checkAllow_ok.1 hc
    refine ⟨⟨baseIpa, size, attributes, rfl, ?_⟩, fun hclash => ?_⟩
    · rw [← Stage2Range.endIpa_eq hnew, hm]
    · obtain ⟨g, hg, hmeets⟩ := hclash.2.2.2
      exact absurd (hreg g hg).symm ((meets_iff (range_allowRange attributes hnew) _).1 hmeets)

/-- Apart from a clash with an allowed range, the errors of `handle_range` say what is wrong. -/
theorem handleRange_reportsCause {b b' : Stage2Builder M σ} (hord : b.memoryAccessHandlers.Ordered) {baseIpa size : U64}
    {handler : MemoryAccessHandler σ} {e : Stage2ConfigError}
    (h : b.handleRange baseIpa size handler = some (.error e, b'))
    (hno : ValidRange baseIpa size → ∀ r ∈ b.allowedRanges.items, ¬ (Stage2Request.handleRange baseIpa size handler).Meets r) :
    b.ReportsCause (.handleRange baseIpa size handler) e := by
  have hacross : ¬ b.ClashesAcross (.handleRange baseIpa size handler) := fun hclash => by
    obtain ⟨r, hr, hmeets⟩ := hclash.2.2.2
    exact hno hclash.1 r hr hmeets
  refine ⟨?_, fun hclash => absurd hclash hacross⟩
  obtain ⟨e, hc, hr⟩ | ⟨range, hc, ⟨hfull, hr⟩ | ⟨⟨g, hg, hnd⟩, hr⟩ | ⟨-, -, registry, -, -, hr⟩⟩ :=
    b.handleRange_cases hord baseIpa size handler <;> cases hr.symm.trans h
  · unfold checkHandle at hc
    rcases bind_error.1 hc with hnew | ⟨range, hnew, hc⟩
    · exact (new_error_reportsCause b (.handleRange baseIpa size handler) hnew).1
    · rcases bind_error.1 hc with hall | ⟨-, -, hc⟩
      · obtain ⟨-, r, hr, hnd⟩ := checkNoAllowedOverlap_error hall
        exact absurd ((meets_iff (range_handleRange handler hnew) r).2 hnd)
          (hno ((Stage2Range.new_ok_iff _ _).1 ⟨range, hnew⟩) r hr)
      · cases hc
  · exact ⟨rfl, hfull⟩
  · exact ⟨rfl, g, hg, (meets_iff (range_handleRange handler (checkHandle_ok.1 hc).1) _).2 hnd⟩

/-- **An error says what it is documented to mean, except that** `handle_range` calls a clash with an allowed range one
between two allowed ranges. -/
theorem errors_documented_iff (reqs : List (Stage2Request σ)) :
    ∃ results b, (new : Stage2Builder M σ).applyAll reqs = some (results, b) ∧ ∀ x,
      (∀ e b', b.apply x = some (.error e, b') → b.ReportsCause x e) ↔
        ¬ (x.isAllow = false ∧ ValidRange x.baseIpa x.size ∧ ∃ r ∈ b.allowedRanges.items, x.Meets r) := by
  obtain ⟨results, b, h, hinv, -⟩ := applyAll_records (M := M) reqs
  refine ⟨results, b, h, fun x => ⟨?_, ?_⟩⟩
  · rintro hall ⟨hkind, hv, r, hr, hmeets⟩
    cases x with
    | allowRange baseIpa size attributes => cases hkind
    | handleRange baseIpa size handler => cases (hall _ _ (handleRange_meets_allowed hv hr hmeets)).1.1
  · intro hno e b' hx
    cases x with
    | allowRange baseIpa size attributes => exact allowRange_reportsCause hx
    | handleRange baseIpa size handler =>
      exact handleRange_reportsCause hinv.ordered hx fun hv r hr hmeets => hno ⟨rfl, hv, r, hr, hmeets⟩

theorem errors_documented_iff_adjacentRegions :
    ∃ results b, (new : Stage2Builder RegionTable Unit).applyAll adjacentRegions = some (results, b) ∧ ∀ x,
      (∀ e b', b.apply x = some (.error e, b') → b.ReportsCause x e) ↔
        ¬ (x.isAllow = false ∧ ValidRange x.baseIpa x.size ∧ ∃ r ∈ b.allowedRanges.items, x.Meets r) :=
  errors_documented_iff adjacentRegions

/-- A page is allowed and then handled: the handled range is reported as an allowed one that overlaps another.  Handled
first and then allowed, the clash is named. -/
theorem handleRange_misnames_clash :
    ∃ b b' : Stage2Builder RegionTable Unit,
      new.applyAll [.allowRange 0x1000 0x1000 1] = some ([.ok ()], b) ∧
      b.apply (.handleRange 0x1000 0x1000 ⟨none, none⟩) = some (.error .allowedRangeOverlap, b) ∧
      ¬ b.ReportsCause (.handleRange 0x1000 0x1000 ⟨none, none⟩) .allowedRangeOverlap ∧
      new.applyAll [.handleRange 0x1000 0x1000 ⟨none, none⟩] = some ([.ok ()], b') ∧
      b'.apply (.allowRange 0x1000 0x1000 1) = some (.error .allowedRangeOverlapsMemoryAccessHandler, b') := by
  refine ⟨_, _, rfl, rfl, fun h => ?_, rfl, rfl⟩
  cases h.1.1

end Stage2Builder

end Ritm
