import Ritm.Stage2Policy
/-!
# Stage2Order — the order of configuration calls does not matter

A list of calls all succeed on a new builder exactly when the list is compatible (`compatible_of_allOk`,
`allOk_of_compatible`): each call is acceptable on its own, no two ranges meet, and there are not too many.  That does
not mention the order, and neither does what the builder then holds (`Holds`): the table as a function, and the regions,
whose sorted array is determined by its elements.
-/
namespace Ritm

open Lib (ArrayVec)

variable {σ : Type}

/-- **What is relied on**: whether `map_range` takes a region does not depend on a region mapped before that shares no
page with it. -/
class IndependentIdMap (M : Type) [IdMap M] : Prop where
  mapRange_ok_iff {m : M} {r : MemoryRegion} {a : Stage2Attributes} (h : (IdMap.mapRange m r a).1 = .ok ())
    (r' : MemoryRegion) (a' : Stage2Attributes)
    (hd : r.endAddr.toNat ≤ r'.start.toNat ∨ r'.endAddr.toNat ≤ r.start.toNat) :
    (IdMap.mapRange (IdMap.mapRange m r a).2 r' a').1 = .ok () ↔ (IdMap.mapRange m r' a').1 = .ok ()

instance : IndependentIdMap RegionTable where
  mapRange_ok_iff {m r a} _ r' a' _ := by
    simp only [IdMap.mapRange]
    by_cases hr : r'.endAddr.toNat ≤ 2 ^ 48
    · rw [if_pos hr, if_pos hr]
    · rw [if_neg hr, if_neg hr]

namespace Stage2Request

def range : Stage2Request σ → Option Stage2Range
  | .allowRange baseIpa size _ => (Stage2Range.new baseIpa size).toOption
  | .handleRange baseIpa size _ => (Stage2Range.new baseIpa size).toOption

def allowPart : Stage2Request σ → Option (Stage2Range × Stage2Attributes)
  | .allowRange baseIpa size attributes => (Stage2Range.new baseIpa size).toOption.map (·, attributes)
  | .handleRange .. => none

def handlePart : Stage2Request σ → Option (MemoryAccessRegion σ)
  | .allowRange .. => none
  | .handleRange baseIpa size handler => (Stage2Range.new baseIpa size).toOption.map (.new · handler)

def Acceptable (M : Type) [IdMap M] : Stage2Request σ → Prop
  | .allowRange baseIpa size attributes => ∃ r, Stage2Range.new baseIpa size = .ok r ∧
      (IdMap.mapRange (IdMap.new : M) ⟨baseIpa, r.endIpa⟩ attributes).1 = .ok ()
  | .handleRange baseIpa size _ => ∃ r, Stage2Range.new baseIpa size = .ok r

def Apart (x y : Stage2Request σ) : Prop := ∀ r s, x.range = some r → y.range = some s → r.Disjoint s

theorem Apart.symm {x y : Stage2Request σ} (h : Apart x y) : Apart y x := fun r s hr hs => (h s r hs hr).symm

end Stage2Request

open Stage2Request

def allowParts (reqs : List (Stage2Request σ)) : List (Stage2Range × Stage2Attributes) := reqs.filterMap allowPart

def handleParts (reqs : List (Stage2Request σ)) : List (MemoryAccessRegion σ) := reqs.filterMap handlePart

/-- **Calls that only the page table can refuse**, in any order: valid ranges that do not meet, and not too many. -/
structure Fits (reqs : List (Stage2Request σ)) : Prop where
  valid : ∀ x ∈ reqs, ∃ range, x.range = some range
  apart : reqs.Pairwise Apart
  allows : (allowParts reqs).length ≤ maxAllowedRanges
  handles : (handleParts reqs).length ≤ maxMemoryAccessHandlers

theorem fits_nil : Fits ([] : List (Stage2Request σ)) where
  valid _ h := by cases h
  apart := List.Pairwise.nil
  allows := Nat.zero_le _
  handles := Nat.zero_le _

theorem Fits.perm {reqs reqs' : List (Stage2Request σ)} (h : Fits reqs) (hp : reqs.Perm reqs') : Fits reqs' where
  valid x hx := h.valid x (hp.mem_iff.2 hx)
  apart := (hp.pairwise_iff fun hxy => hxy.symm).1 h.apart
  allows := (hp.filterMap allowPart).length_eq ▸ h.allows
  handles := (hp.filterMap handlePart).length_eq ▸ h.handles

theorem Fits.of_append {pre reqs : List (Stage2Request σ)} (h : Fits (pre ++ reqs)) : Fits pre where
  valid x hx := h.valid x (List.mem_append_left _ hx)
  apart := (List.pairwise_append.1 h.apart).1
  allows := by
    have := h.allows
    simp only [allowParts, List.filterMap_append, List.length_append] at this ⊢
    omega
  handles := by
    have := h.handles
    simp only [handleParts, List.filterMap_append, List.length_append] at this ⊢
    omega

theorem Fits.apart_last {pre : List (Stage2Request σ)} {x : Stage2Request σ} (h : Fits (pre ++ [x])) :
    ∀ y ∈ pre, Apart y x := fun y hy => (List.pairwise_append.1 h.apart).2.2 y hy x (List.mem_singleton.2 rfl)

theorem Fits.snoc {pre : List (Stage2Request σ)} (h : Fits pre) {x : Stage2Request σ} {range : Stage2Range}
    (hx : x.range = some range) (hapart : ∀ y ∈ pre, Apart y x)
    (hallows : (allowParts (pre ++ [x])).length ≤ maxAllowedRanges)
    (hhandles : (handleParts (pre ++ [x])).length ≤ maxMemoryAccessHandlers) : Fits (pre ++ [x]) where
  valid y hy := by
    rcases List.mem_append.1 hy with hy | hy
    · exact h.valid y hy
    · rw [List.mem_singleton.1 hy]
      exact ⟨range, hx⟩
  apart := by
    refine List.pairwise_append.2 ⟨h.apart, List.pairwise_singleton _ _, fun y hy z hz => ?_⟩
    rw [List.mem_singleton.1 hz]
    exact hapart y hy
  allows := hallows
  handles := hhandles

/-- `map_range` takes what the calls ask for, one after another. -/
def Takes {M : Type} [IdMap M] (m : M) : List (Stage2Request σ) → Prop
  | [] => True
  | .allowRange baseIpa size attributes :: reqs =>
    (IdMap.mapRange m ⟨baseIpa, baseIpa + size⟩ attributes).1 = .ok () ∧
      Takes (IdMap.mapRange m ⟨baseIpa, baseIpa + size⟩ attributes).2 reqs
  | .handleRange .. :: reqs => Takes m reqs

/-- **A list of calls that can all succeed**, in any order. -/
structure Compatible (M : Type) [IdMap M] (reqs : List (Stage2Request σ)) : Prop extends Fits reqs where
  acceptable : ∀ x ∈ reqs, Acceptable M x

theorem compatible_nil {M : Type} [IdMap M] : Compatible M ([] : List (Stage2Request σ)) :=
  ⟨fits_nil, fun _ h => by cases h⟩

theorem Compatible.perm {M : Type} [IdMap M] {reqs reqs' : List (Stage2Request σ)} (h : Compatible M reqs)
    (hp : reqs.Perm reqs') : Compatible M reqs' :=
  ⟨h.toFits.perm hp, fun x hx => h.acceptable x (hp.mem_iff.2 hx)⟩

theorem Compatible.of_append {M : Type} [IdMap M] {pre reqs : List (Stage2Request σ)} (h : Compatible M (pre ++ reqs)) :
    Compatible M pre :=
  ⟨h.toFits.of_append, fun x hx => h.acceptable x (List.mem_append_left _ hx)⟩

theorem Compatible.snoc_iff {M : Type} [IdMap M] {pre : List (Stage2Request σ)} (h : Compatible M pre)
    (x : Stage2Request σ) : Compatible M (pre ++ [x]) ↔ Acceptable M x ∧ Fits (pre ++ [x]) := by
  constructor
  · intro hx
    exact ⟨hx.acceptable x (by simp), hx.toFits⟩
  · rintro ⟨hacc, hfits⟩
    refine ⟨hfits, fun y hy => ?_⟩
    rcases List.mem_append.1 hy with hy | hy
    · exact h.acceptable y hy
    · rw [List.mem_singleton.1 hy]
      exact hacc

theorem apart_iff_disjoint {pre : List (Stage2Request σ)} {x : Stage2Request σ} {range : Stage2Range}
    (hx : x.range = some range) :
    (∀ y ∈ pre, Apart y x) ↔
      (∀ p ∈ allowParts pre, range.Disjoint p.1) ∧ ∀ g ∈ handleParts pre, range.Disjoint g.toStage2Range := by
  constructor
  · intro h
    refine ⟨fun p hp => ?_, fun g hg => ?_⟩
    · obtain ⟨y, hy, hyp⟩ := List.mem_filterMap.1 hp
      cases y with
      | allowRange baseIpa size attributes =>
        obtain ⟨r, hr, rfl⟩ := Option.map_eq_some_iff.1 hyp
        exact (h _ hy r range hr hx).symm
      | handleRange baseIpa size handler => cases hyp
    · obtain ⟨y, hy, hyg⟩ := List.mem_filterMap.1 hg
      cases y with
      | allowRange baseIpa size attributes => cases hyg
      | handleRange baseIpa size handler =>
        obtain ⟨r, hr, rfl⟩ := Option.map_eq_some_iff.1 hyg
        exact (h _ hy r range hr hx).symm
  · rintro ⟨ha, hh⟩ y hy r s hr hs
    rw [hx] at hs
    cases hs
    cases y with
    | allowRange baseIpa size attributes =>
      exact (ha (r, attributes) (List.mem_filterMap.2 ⟨_, hy, Option.map_eq_some_iff.2 ⟨r, hr, rfl⟩⟩)).symm
    | handleRange baseIpa size handler =>
      exact (hh (.new r handler) (List.mem_filterMap.2 ⟨_, hy, Option.map_eq_some_iff.2 ⟨r, hr, rfl⟩⟩)).symm

namespace Stage2Builder

variable {M : Type} [IdMap M]

/-- **What a builder holds after the calls `pre`**, all of which succeeded. -/
structure Holds (pre : List (Stage2Request σ)) (b : Stage2Builder M σ) : Prop where
  allowed : b.allowedRanges.items = (allowParts pre).map Prod.fst
  ordered : b.memoryAccessHandlers.Ordered
  regions : b.memoryAccessHandlers.regions.items.Perm (handleParts pre)

/-- And what its table maps. -/
def Shows (pre : List (Stage2Request σ)) (b : Stage2Builder M σ) : Prop :=
  ∀ ipa a, IdMap.lookup b.idmap ipa = some a ↔ ∃ p ∈ allowParts pre, p.1.Contains ipa ∧ p.2 = a

/-- With it, what the builder's table will take next: what a new one would. -/
structure Describes (pre : List (Stage2Request σ)) (b : Stage2Builder M σ) : Prop extends Holds pre b where
  accepts_iff : ∀ (r : Stage2Range) a, (∀ p ∈ allowParts pre, r.Disjoint p.1) →
    ((IdMap.mapRange b.idmap ⟨r.baseIpa, r.endIpa⟩ a).1 = .ok () ↔
      (IdMap.mapRange (IdMap.new : M) ⟨r.baseIpa, r.endIpa⟩ a).1 = .ok ())

def AllOk (b : Stage2Builder M σ) (reqs : List (Stage2Request σ)) (b' : Stage2Builder M σ) : Prop :=
  ∃ results, b.applyAll reqs = some (results, b') ∧ ∀ r ∈ results, r = .ok ()

theorem allOk_cons {b b' : Stage2Builder M σ} {req : Stage2Request σ} {reqs : List (Stage2Request σ)} :
    b.AllOk (req :: reqs) b' ↔ ∃ b₁, b.apply req = some (.ok (), b₁) ∧ b₁.AllOk reqs b' := by
  unfold AllOk
  constructor
  · rintro ⟨results, h, hok⟩
    rw [applyAll] at h
    split at h
    · cases h
    rename_i result b₁ hr
    obtain ⟨⟨rs, b₂⟩, hrs, heq⟩ := Option.map_eq_some_iff.1 h
    cases heq
    have : result = .ok () := hok result (by simp)
    subst this
    exact ⟨b₁, hr, rs, hrs, fun r hr' => hok r (by simp [hr'])⟩
  · rintro ⟨b₁, hr, rs, hrs, hok⟩
    refine ⟨.ok () :: rs, ?_, fun r hr' => ?_⟩
    · rw [applyAll, hr]
      simp only [hrs, Option.map_some]
    · rcases List.mem_cons.1 hr' with rfl | hr'
      · rfl
      · exact hok r hr'

theorem new_ok_of_allOk : ∀ (reqs : List (Stage2Request σ)) {b b' : Stage2Builder M σ}, b.AllOk reqs b' →
    ∀ {baseIpa size : U64} {attributes : Stage2Attributes}, .allowRange baseIpa size attributes ∈ reqs →
      ∃ range, Stage2Range.new baseIpa size = .ok range
  | [], _, _, _, _, _, _, hmem => by cases hmem
  | x :: reqs, _, _, h, _, _, _, hmem => by
    obtain ⟨b₁, hx, h'⟩ := allOk_cons.1 h
    rcases List.mem_cons.1 hmem with rfl | hmem
    · obtain ⟨range, -, -, hc, -⟩ := allowRange_ok hx
      exact ⟨range, (checkAllow_ok.1 hc).1⟩
    · exact new_ok_of_allOk reqs h' hmem

theorem toOption_eq_some {α β : Type} {x : Except α β} {b : β} : x.toOption = some b ↔ x = .ok b := by
  cases x <;> simp [Except.toOption]

theorem range_allowRange (attributes : Stage2Attributes) {baseIpa size : U64} {range : Stage2Range}
    (hnew : Stage2Range.new baseIpa size = .ok range) :
    (.allowRange baseIpa size attributes : Stage2Request σ).range = some range := toOption_eq_some.2 hnew

theorem range_handleRange (handler : MemoryAccessHandler σ) {baseIpa size : U64} {range : Stage2Range}
    (hnew : Stage2Range.new baseIpa size = .ok range) :
    (Stage2Request.handleRange baseIpa size handler).range = some range := toOption_eq_some.2 hnew

theorem allowParts_snoc_allow (pre : List (Stage2Request σ)) (attributes : Stage2Attributes) {baseIpa size : U64}
    {range : Stage2Range} (hnew : Stage2Range.new baseIpa size = .ok range) :
    allowParts (pre ++ [.allowRange baseIpa size attributes]) = allowParts pre ++ [(range, attributes)] := by
  simp [allowParts, allowPart, toOption_eq_some.2 hnew]

theorem allowParts_snoc_handle (pre : List (Stage2Request σ)) (baseIpa size : U64) (handler : MemoryAccessHandler σ) :
    allowParts (pre ++ [.handleRange baseIpa size handler]) = allowParts pre := by
  simp [allowParts, allowPart]

theorem handleParts_snoc_allow (pre : List (Stage2Request σ)) (baseIpa size : U64) (attributes : Stage2Attributes) :
    handleParts (pre ++ [.allowRange baseIpa size attributes]) = handleParts pre := by
  simp [handleParts, handlePart]

theorem handleParts_snoc_handle (pre : List (Stage2Request σ)) (handler : MemoryAccessHandler σ) {baseIpa size : U64}
    {range : Stage2Range} (hnew : Stage2Range.new baseIpa size = .ok range) :
    handleParts (pre ++ [.handleRange baseIpa size handler]) = handleParts pre ++ [.new range handler] := by
  simp [handleParts, handlePart, toOption_eq_some.2 hnew]

omit [IdMap M] in
theorem Holds.handleRange {pre : List (Stage2Request σ)} {b b' : Stage2Builder M σ} (hd : Holds pre b)
    {baseIpa size : U64} {handler : MemoryAccessHandler σ}
    (h : b.handleRange baseIpa size handler = some (.ok (), b')) :
    Holds (pre ++ [.handleRange baseIpa size handler]) b' ∧ b'.idmap = b.idmap := by
  obtain ⟨range, registry, hc, -, -, hord, hperm, rfl⟩ := handleRange_ok hd.ordered h
  have hnew := (checkHandle_ok.1 hc).1
  have hparts := allowParts_snoc_handle pre baseIpa size handler
  refine ⟨⟨by rw [hparts]; exact hd.allowed, hord, ?_⟩, rfl⟩
  rw [handleParts_snoc_handle pre handler hnew]
  exact hperm.trans ((hd.regions.cons _).trans (List.perm_append_singleton _ _).symm)

theorem Describes.handleRange {pre : List (Stage2Request σ)} {b b' : Stage2Builder M σ} (hd : Describes pre b)
    {baseIpa size : U64} {handler : MemoryAccessHandler σ}
    (h : b.handleRange baseIpa size handler = some (.ok (), b')) :
    Describes (pre ++ [.handleRange baseIpa size handler]) b' := by
  obtain ⟨hholds, hmap⟩ := hd.toHolds.handleRange h
  refine ⟨hholds, ?_⟩
  rw [allowParts_snoc_handle, hmap]
  exact hd.accepts_iff

omit [IdMap M] in
/-- **What two builders hold after the same calls in two orders is the same**, as an array of regions and as a table. -/
theorem Holds.registry_eq {reqs reqs' : List (Stage2Request σ)} (hp : reqs.Perm reqs') {b b' : Stage2Builder M σ}
    (hd : Holds reqs b) (hd' : Holds reqs' b') : b'.memoryAccessHandlers = b.memoryAccessHandlers := by
  have hperm : b'.memoryAccessHandlers.regions.items.Perm b.memoryAccessHandlers.regions.items :=
    hd'.regions.trans ((hp.filterMap handlePart).symm.trans hd.regions.symm)
  -- two regions cannot each end before the other begins, so an ordered array is determined by its elements
  have hitems := hperm.eq_of_pairwise (fun g g' _ _ h h' => by
    have := g.base_lt_end
    have := g'.base_lt_end
    omega) hd'.ordered hd.ordered
  exact MemoryAccessHandlerRegistry.ext (Lib.ArrayVec.ext hitems)

theorem Shows.lookup_eq {reqs reqs' : List (Stage2Request σ)} (hp : reqs.Perm reqs') {b b' : Stage2Builder M σ}
    (hs : Shows reqs b) (hs' : Shows reqs' b') (ipa : U64) : IdMap.lookup b'.idmap ipa = IdMap.lookup b.idmap ipa := by
  apply Option.ext
  intro a
  rw [hs' ipa a, hs ipa a]
  exact exists_congr fun p => and_congr_left fun _ => ((hp.filterMap allowPart).mem_iff).symm

omit [IdMap M] in
theorem Holds.disjoint_allowed {pre : List (Stage2Request σ)} {b : Stage2Builder M σ} (hd : Holds pre b)
    (range : Stage2Range) :
    (∀ r ∈ b.allowedRanges.items, range.Disjoint r) ↔ ∀ p ∈ allowParts pre, range.Disjoint p.1 := by
  rw [hd.allowed]
  simp only [List.mem_map, forall_exists_index, and_imp, forall_apply_eq_imp_iff₂]

omit [IdMap M] in
theorem Holds.checkAllow {pre : List (Stage2Request σ)} {b : Stage2Builder M σ} (hd : Holds pre b) {baseIpa size : U64}
    {attributes : Stage2Attributes} {range : Stage2Range} (hnew : Stage2Range.new baseIpa size = .ok range)
    (hfits : Fits (pre ++ [.allowRange baseIpa size attributes])) : b.checkAllow baseIpa size = .ok range := by
  obtain ⟨hdis, hdish⟩ := (apart_iff_disjoint (range_allowRange attributes hnew)).1 hfits.apart_last
  have hroom := hfits.allows
  have hlen : b.allowedRanges.items.length = (allowParts pre).length := by rw [hd.allowed, List.length_map]
  rw [allowParts_snoc_allow pre attributes hnew, List.length_append, List.length_singleton] at hroom
  exact checkAllow_ok.2 ⟨hnew, by omega, (hd.disjoint_allowed range).2 hdis,
    fun g hg => (hdish g (hd.regions.mem_iff.1 hg)).symm⟩

omit [IdMap M] in
theorem Holds.handleRange_isOk {pre : List (Stage2Request σ)} {b : Stage2Builder M σ} (hd : Holds pre b)
    {baseIpa size : U64} {handler : MemoryAccessHandler σ} {range : Stage2Range}
    (hnew : Stage2Range.new baseIpa size = .ok range)
    (hfits : Fits (pre ++ [.handleRange baseIpa size handler])) :
    ∃ b', b.handleRange baseIpa size handler = some (.ok (), b') := by
  obtain ⟨hdis, hdish⟩ := (apart_iff_disjoint (range_handleRange handler hnew)).1 hfits.apart_last
  have hroom := hfits.handles
  have hlen := hd.regions.length_eq
  rw [handleParts_snoc_handle pre handler hnew, List.length_append, List.length_singleton] at hroom
  exact handleRange_of_disjoint hd.ordered handler (checkHandle_ok.2 ⟨hnew, (hd.disjoint_allowed range).2 hdis⟩)
    (by omega) fun g hg => hdish g (hd.regions.mem_iff.1 hg)

/-- **A call succeeds exactly when it is compatible with the calls before it.** -/
theorem apply_ok_iff {pre : List (Stage2Request σ)} {b : Stage2Builder M σ} (hd : Describes pre b)
    (hc : Compatible M pre) (x : Stage2Request σ) :
    (∃ b', b.apply x = some (.ok (), b')) ↔ Compatible M (pre ++ [x]) := by
  rw [hc.snoc_iff]
  cases x with
  | allowRange baseIpa size attributes =>
    constructor
    · rintro ⟨b', h⟩
      obtain ⟨range, m, allowed, hchk, hm, -, -⟩ := allowRange_ok h
      obtain ⟨hnew, hlen, hall, hreg⟩ := checkAllow_ok.1 hchk
      have hdis := (hd.disjoint_allowed range).1 hall
      have hrange := range_allowRange (σ := σ) attributes hnew
      refine ⟨⟨range, hnew, ?_⟩, hc.snoc hrange ((apart_iff_disjoint hrange).2 ⟨hdis, fun g hg => ?_⟩) ?_ ?_⟩
      · obtain ⟨rfl, -⟩ := Stage2Range.new_ok hnew
        exact (hd.accepts_iff range attributes hdis).1 (by rw [hm])
      · exact (hreg g (hd.regions.mem_iff.2 hg)).symm
      · rw [hd.allowed, List.length_map] at hlen
        rw [allowParts_snoc_allow pre attributes hnew, List.length_append, List.length_singleton]
        omega
      · rw [handleParts_snoc_allow]
        exact hc.handles
    · rintro ⟨⟨range, hnew, hacc⟩, hfits⟩
      refine allowRange_of_mapRange_ok (hd.checkAllow hnew hfits) ?_
      have hdis := ((apart_iff_disjoint (range_allowRange attributes hnew)).1 hfits.apart_last).1
      obtain ⟨rfl, -⟩ := Stage2Range.new_ok hnew
      exact (hd.accepts_iff range attributes hdis).2 hacc
  | handleRange baseIpa size handler =>
    constructor
    · rintro ⟨b', h⟩
      obtain ⟨range, registry, hchk, hlen, hreg, -, -, -⟩ := handleRange_ok hd.ordered h
      obtain ⟨hnew, hall⟩ := checkHandle_ok.1 hchk
      have hrange := range_handleRange handler hnew
      refine ⟨⟨range, hnew⟩, hc.snoc hrange ((apart_iff_disjoint hrange).2
        ⟨(hd.disjoint_allowed range).1 hall, fun g hg => hreg g (hd.regions.mem_iff.2 hg)⟩) ?_ ?_⟩
      · rw [allowParts_snoc_handle]
        exact hc.allows
      · rw [hd.regions.length_eq] at hlen
        rw [handleParts_snoc_handle pre handler hnew, List.length_append, List.length_singleton]
        omega
    · rintro ⟨⟨range, hnew⟩, hfits⟩
      exact hd.handleRange_isOk hnew hfits

theorem holds_new : Holds [] (new : Stage2Builder M σ) where
  allowed := rfl
  ordered := MemoryAccessHandlerRegistry.ordered_new
  regions := List.Perm.nil

theorem describes_new : Describes [] (new : Stage2Builder M σ) := ⟨holds_new, fun _ _ _ => Iff.rfl⟩

theorem Holds.allowRange {pre : List (Stage2Request σ)} {b b' : Stage2Builder M σ} (hd : Holds pre b)
    {baseIpa size : U64} {attributes : Stage2Attributes}
    (h : b.allowRange baseIpa size attributes = some (.ok (), b')) :
    Holds (pre ++ [.allowRange baseIpa size attributes]) b' := by
  obtain ⟨range, m, allowed, hc, -, hitems, rfl⟩ := allowRange_ok h
  have hnew := (checkAllow_ok.1 hc).1
  refine ⟨?_, hd.ordered, ?_⟩
  · show allowed.items = _
    rw [hitems, allowParts_snoc_allow pre attributes hnew, hd.allowed, List.map_append]
    rfl
  · rw [handleParts_snoc_allow]
    exact hd.regions

theorem Holds.apply {pre : List (Stage2Request σ)} {b b' : Stage2Builder M σ} (hd : Holds pre b)
    {x : Stage2Request σ} (h : b.apply x = some (.ok (), b')) : Holds (pre ++ [x]) b' := by
  cases x with
  | allowRange baseIpa size attributes => exact hd.allowRange h
  | handleRange baseIpa size handler => exact (hd.handleRange h).1

theorem holds_of_allOk : ∀ (reqs : List (Stage2Request σ)) {pre : List (Stage2Request σ)} {b b' : Stage2Builder M σ},
    Holds pre b → b.AllOk reqs b' → Holds (pre ++ reqs) b'
  | [], _, _, _, hd, ⟨_, h, _⟩ => by
    cases h
    simpa using hd
  | x :: reqs, _, _, _, hd, h => by
    obtain ⟨b₁, hx, h'⟩ := allOk_cons.1 h
    have := holds_of_allOk reqs (hd.apply hx) h'
    simpa using this

section Table

variable [LawfulIdMap M]

theorem shows_new : Shows [] (new : Stage2Builder M σ) := fun ipa a => by
  show IdMap.lookup (IdMap.new : M) ipa = some a ↔ _
  rw [LawfulIdMap.lookup_new]
  simp [allowParts]

theorem Shows.allowRange {pre : List (Stage2Request σ)} {b b' : Stage2Builder M σ} (hs : Shows pre b) (hd : Holds pre b)
    {baseIpa size : U64} {attributes : Stage2Attributes} (ha : IdMap.Maps M attributes)
    (h : b.allowRange baseIpa size attributes = some (.ok (), b')) :
    Shows (pre ++ [.allowRange baseIpa size attributes]) b' := by
  obtain ⟨range, m, allowed, hc, hm, hitems, rfl⟩ := allowRange_ok h
  obtain ⟨hnew, -, hall, -⟩ := checkAllow_ok.1 hc
  obtain ⟨rfl, rfl⟩ := Stage2Range.new_ok hnew
  have hdis : ∀ p ∈ allowParts pre, range.Disjoint p.1 := fun p hp =>
    hall p.1 (by rw [hd.allowed]; exact List.mem_map_of_mem hp)
  have hok : (IdMap.mapRange b.idmap ⟨range.baseIpa, range.endIpa⟩ attributes).1 = .ok () := by rw [hm]
  intro ipa a
  have hl := LawfulIdMap.lookup_mapRange_ok ha hok ipa
  rw [hm] at hl
  show IdMap.lookup m ipa = some a ↔ _
  rw [hl, allowParts_snoc_allow pre attributes hnew]
  by_cases hin : (⟨range.baseIpa, range.endIpa⟩ : MemoryRegion).Contains ipa
  · rw [if_pos hin, Option.some.injEq]
    constructor
    · rintro rfl
      exact ⟨(range, attributes), by simp, hin, rfl⟩
    · rintro ⟨p, hp, hpi, rfl⟩
      rw [List.mem_append, List.mem_singleton] at hp
      rcases hp with hp | rfl
      · exact absurd hpi ((hdis p hp).not_contains hin)
      · rfl
  · rw [if_neg hin, hs ipa a]
    constructor
    · rintro ⟨p, hp, hpi⟩
      exact ⟨p, by simp [hp], hpi⟩
    · rintro ⟨p, hp, hpi, hpa⟩
      rw [List.mem_append, List.mem_singleton] at hp
      rcases hp with hp | rfl
      · exact ⟨p, hp, hpi, hpa⟩
      · exact absurd hpi hin

theorem Shows.apply {pre : List (Stage2Request σ)} {b b' : Stage2Builder M σ} (hs : Shows pre b) (hd : Holds pre b)
    {x : Stage2Request σ} (hx : x.Maps M) (h : b.apply x = some (.ok (), b')) : Shows (pre ++ [x]) b' := by
  cases x with
  | allowRange baseIpa size attributes => exact hs.allowRange hd hx h
  | handleRange baseIpa size handler =>
    unfold Shows
    rw [allowParts_snoc_handle, (hd.handleRange h).2]
    exact hs

theorem shows_of_allOk : ∀ (reqs : List (Stage2Request σ)) {pre : List (Stage2Request σ)} {b b' : Stage2Builder M σ},
    Holds pre b → Shows pre b → (∀ x ∈ reqs, x.Maps M) → b.AllOk reqs b' → Shows (pre ++ reqs) b'
  | [], _, _, _, _, hs, _, ⟨_, h, _⟩ => by
    cases h
    simpa using hs
  | x :: reqs, _, _, _, hd, hs, hmaps, h => by
    obtain ⟨hx, hrest⟩ := List.forall_mem_cons.1 hmaps
    obtain ⟨b₁, hb₁, h'⟩ := allOk_cons.1 h
    have := shows_of_allOk reqs (hd.apply hb₁) (hs.apply hd hx hb₁) hrest h'
    simpa using this

end Table

/-- **Calls that only the page table can refuse** all succeed exactly when it takes their ranges. -/
theorem allOk_iff_takes : ∀ (reqs : List (Stage2Request σ)) {pre : List (Stage2Request σ)} {b : Stage2Builder M σ},
    Holds pre b → Fits (pre ++ reqs) → ((∃ b', b.AllOk reqs b') ↔ Takes b.idmap reqs)
  | [], _, b, _, _ => ⟨fun _ => trivial, fun _ => ⟨b, [], rfl, fun _ h => by cases h⟩⟩
  | .allowRange baseIpa size attributes :: reqs, pre, b, hd, hf => by
    have hf' : Fits (pre ++ [.allowRange baseIpa size attributes] ++ reqs) := by simpa using hf
    obtain ⟨range, hrange⟩ := hf'.of_append.valid _ (List.mem_append_right _ (List.mem_singleton.2 rfl))
    have hnew := toOption_eq_some.1 hrange
    have hchk := hd.checkAllow hnew hf'.of_append
    have hend : baseIpa + size = range.endIpa := (Stage2Range.endIpa_eq hnew).symm
    rw [Takes, hend]
    constructor
    · rintro ⟨b', h⟩
      obtain ⟨b₁, hx, h'⟩ := allOk_cons.1 h
      obtain ⟨range', m, allowed, hchk', hm, -, rfl⟩ := allowRange_ok hx
      rw [hchk] at hchk'
      cases hchk'
      rw [hm]
      exact ⟨rfl, (allOk_iff_takes reqs (hd.allowRange hx) hf').1 ⟨b', h'⟩⟩
    · rintro ⟨hm, ht⟩
      obtain ⟨b₁, hx⟩ := allowRange_of_mapRange_ok hchk hm
      obtain ⟨range', m, allowed, hchk', hm', -, rfl⟩ := allowRange_ok hx
      rw [hchk] at hchk'
      cases hchk'
      rw [hm'] at ht
      obtain ⟨b', h'⟩ := (allOk_iff_takes reqs (hd.allowRange hx) hf').2 ht
      exact ⟨b', allOk_cons.2 ⟨_, hx, h'⟩⟩
  | .handleRange baseIpa size handler :: reqs, pre, b, hd, hf => by
    have hf' : Fits (pre ++ [.handleRange baseIpa size handler] ++ reqs) := by simpa using hf
    obtain ⟨range, hrange⟩ := hf'.of_append.valid _ (List.mem_append_right _ (List.mem_singleton.2 rfl))
    obtain ⟨b₁, hx⟩ := hd.handleRange_isOk (toOption_eq_some.1 hrange) hf'.of_append
    obtain ⟨hd', hmap⟩ := hd.handleRange hx
    rw [Takes, ← hmap, ← allOk_iff_takes reqs hd' hf']
    constructor
    · rintro ⟨b', h⟩
      obtain ⟨b₂, hx', h'⟩ := allOk_cons.1 h
      have heq : some (Except.ok (), b₁) = some (.ok (), b₂) := hx.symm.trans hx'
      cases heq
      exact ⟨b', h'⟩
    · rintro ⟨b', h'⟩
      exact ⟨b', allOk_cons.2 ⟨b₁, hx, h'⟩⟩

variable [IndependentIdMap M]

theorem Describes.allowRange {pre : List (Stage2Request σ)} {b b' : Stage2Builder M σ} (hd : Describes pre b)
    {baseIpa size : U64} {attributes : Stage2Attributes}
    (h : b.allowRange baseIpa size attributes = some (.ok (), b')) :
    Describes (pre ++ [.allowRange baseIpa size attributes]) b' := by
  refine ⟨hd.toHolds.allowRange h, fun r a hr => ?_⟩
  obtain ⟨range, m, allowed, hc, hm, -, rfl⟩ := allowRange_ok h
  obtain ⟨hnew, -, -, -⟩ := checkAllow_ok.1 hc
  obtain ⟨rfl, rfl⟩ := Stage2Range.new_ok hnew
  have hok : (IdMap.mapRange b.idmap ⟨range.baseIpa, range.endIpa⟩ attributes).1 = .ok () := by rw [hm]
  rw [allowParts_snoc_allow pre attributes hnew] at hr
  have hi : (IdMap.mapRange m ⟨r.baseIpa, r.endIpa⟩ a).1 = .ok () ↔
      (IdMap.mapRange b.idmap ⟨r.baseIpa, r.endIpa⟩ a).1 = .ok () := by
    have hri := hr (range, attributes) (by simp)
    simpa only [hm] using IndependentIdMap.mapRange_ok_iff hok ⟨r.baseIpa, r.endIpa⟩ a hri.symm
  exact hi.trans (hd.accepts_iff r a fun p hp => hr p (by simp [hp]))

theorem Describes.apply {pre : List (Stage2Request σ)} {b b' : Stage2Builder M σ} (hd : Describes pre b)
    {x : Stage2Request σ} (h : b.apply x = some (.ok (), b')) : Describes (pre ++ [x]) b' := by
  cases x with
  | allowRange baseIpa size attributes => exact hd.allowRange h
  | handleRange baseIpa size handler => exact hd.handleRange h

theorem compatible_of_allOk : ∀ (reqs : List (Stage2Request σ)) {pre : List (Stage2Request σ)} {b b' : Stage2Builder M σ},
    Describes pre b → Compatible M pre → b.AllOk reqs b' → Compatible M (pre ++ reqs)
  | [], _, _, _, _, hc, _ => by simpa using hc
  | x :: reqs, _, _, _, hd, hc, h => by
    obtain ⟨b₁, hx, h'⟩ := allOk_cons.1 h
    have := compatible_of_allOk reqs (hd.apply hx) ((apply_ok_iff hd hc x).1 ⟨b₁, hx⟩) h'
    simpa using this

theorem allOk_of_compatible : ∀ (reqs : List (Stage2Request σ)) {pre : List (Stage2Request σ)} {b : Stage2Builder M σ},
    Describes pre b → Compatible M (pre ++ reqs) → ∃ b', b.AllOk reqs b'
  | [], _, b, _, _ => ⟨b, [], rfl, fun _ h => by cases h⟩
  | x :: reqs, pre, b, hd, hc => by
    have hc' : Compatible M (pre ++ [x] ++ reqs) := by simpa using hc
    obtain ⟨b₁, hx⟩ := (apply_ok_iff hd hc.of_append x).2 hc'.of_append
    obtain ⟨b', h'⟩ := allOk_of_compatible reqs (hd.apply hx) hc'
    exact ⟨b', allOk_cons.2 ⟨b₁, hx, h'⟩⟩

/-- **Configuration order does not matter**: calls that all succeed in one order all succeed in every other, and the
configuration built is the same, as an array of handler regions and as a map of IPAs to attributes (if those of the
calls are ones the table maps pages with). -/
theorem applyAll_perm [LawfulIdMap M] {reqs reqs' : List (Stage2Request σ)} (hp : reqs.Perm reqs')
    {results : List (Except Stage2ConfigError Unit)} {b : Stage2Builder M σ}
    (h : (new : Stage2Builder M σ).applyAll reqs = some (results, b)) (hok : ∀ r ∈ results, r = .ok ()) :
    ∃ results' b', (new : Stage2Builder M σ).applyAll reqs' = some (results', b') ∧ (∀ r ∈ results', r = .ok ()) ∧
      ((∀ x ∈ reqs, x.Maps M) → ∀ ipa, IdMap.lookup b'.build.idmap ipa = IdMap.lookup b.build.idmap ipa) ∧
      b'.build.memoryAccessHandlers.regions.items = b.build.memoryAccessHandlers.regions.items ∧
      ∀ ipa, b'.build.memoryAccessHandlers.find ipa = b.build.memoryAccessHandlers.find ipa := by
  have hall : (new : Stage2Builder M σ).AllOk reqs b := ⟨results, h, hok⟩
  have hc : Compatible M reqs' := (compatible_of_allOk reqs describes_new compatible_nil hall).perm hp
  obtain ⟨b', hall'⟩ := allOk_of_compatible reqs' describes_new hc
  have hregs := (holds_of_allOk reqs holds_new hall).registry_eq hp (holds_of_allOk reqs' holds_new hall')
  have hlookup : (∀ x ∈ reqs, x.Maps M) → ∀ ipa, IdMap.lookup b'.idmap ipa = IdMap.lookup b.idmap ipa := fun hmaps =>
    (shows_of_allOk reqs holds_new shows_new hmaps hall).lookup_eq hp
      (shows_of_allOk reqs' holds_new shows_new (fun x hx => hmaps x (hp.mem_iff.2 hx)) hall')
  obtain ⟨results', h', hok'⟩ := hall'
  refine ⟨results', b', h', hok', hlookup, ?_, fun ipa => ?_⟩
  · exact congrArg (fun r : MemoryAccessHandlerRegistry σ => r.regions.items) hregs
  · exact congrArg (fun r : MemoryAccessHandlerRegistry σ => r.find ipa) hregs

theorem applyAll_perm_regionTable :
    let ascending : List (Stage2Request Unit) :=
      [.allowRange 0 0x1000 1, .handleRange 0x1000 0x1000 ⟨none, none⟩, .handleRange 0x3000 0x1000 ⟨none, none⟩]
    ∃ results b, (new : Stage2Builder RegionTable Unit).applyAll ascending.reverse = some (results, b) ∧
      (∀ r ∈ results, r = .ok ()) ∧ b.build.memoryAccessHandlers.regions.items.length = 2 := by
  intro ascending
  have hrun : ∃ b, (new : Stage2Builder RegionTable Unit).applyAll ascending = some ([.ok (), .ok (), .ok ()], b) ∧
      b.build.memoryAccessHandlers.regions.items.length = 2 := ⟨_, rfl, rfl⟩
  obtain ⟨b, hb, hlen⟩ := hrun
  obtain ⟨results, b', h, hok, -, hregs, -⟩ := applyAll_perm (List.reverse_perm ascending).symm hb (by simp)
  exact ⟨results, b', h, hok, by rw [hregs]; exact hlen⟩

end Stage2Builder
end Ritm
