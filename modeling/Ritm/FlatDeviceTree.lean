import Ritm.DeviceTree
/-!
# FlatDeviceTree — the flattened format of device trees

Version 17 of the format: a header of ten words, a reservation block, here empty, the tree as a sequence of tokens, and
the names of its properties, each once.  A tree that has no such form (a name that is not ASCII, or too long a tree for
the header) is written as nothing at all.  What was written is read back as the tree (`fromRaw_flatten`), so there is a
`Dtoolkit`.
-/
namespace Ritm

open Lib (toBe ofBe toBe_length ofBe_toBe)

namespace Fdt

/-! ## Words -/

def word (v : Nat) : List U8 := toBe 4 v

def readWord (bytes : List U8) : Option (Nat × List U8) :=
  if 4 ≤ bytes.length then some (ofBe (bytes.take 4), bytes.drop 4) else none

@[simp] theorem word_length (v : Nat) : (word v).length = 4 := toBe_length 4 v

theorem readWord_word {v : Nat} (h : v < 2 ^ 32) (rest : List U8) : readWord (word v ++ rest) = some (v, rest) := by
  have hlength : 4 ≤ (word v ++ rest).length := by simp
  rw [readWord, if_pos hlength, List.take_left' (word_length v), List.drop_left' (word_length v), word, ofBe_toBe,
    Nat.mod_eq_of_lt (show v < 256 ^ 4 from h)]

def readWords : Nat → List U8 → Option (List Nat × List U8)
  | 0, bytes => some ([], bytes)
  | count + 1, bytes =>
    (readWord bytes).bind fun v => (readWords count v.2).map fun vs => (v.1 :: vs.1, vs.2)

theorem readWords_flatMap (rest : List U8) : ∀ ws : List Nat, (∀ w ∈ ws, w < 2 ^ 32) →
    readWords ws.length (ws.flatMap word ++ rest) = some (ws, rest)
  | [], _ => rfl
  | w :: ws, h => by
    have ih := readWords_flatMap rest ws fun v hv => h v (List.mem_cons_of_mem w hv)
    rw [List.flatMap_cons, List.append_assoc, List.length_cons, readWords, readWord_word (h w List.mem_cons_self),
      Option.bind_some, ih]
    rfl

def padding (length : Nat) : Nat := (4 - length % 4) % 4

def padded (bytes : List U8) : List U8 := bytes ++ List.replicate (padding bytes.length) 0

theorem padded_length (bytes : List U8) : (padded bytes).length = bytes.length + padding bytes.length := by
  rw [padded, List.length_append, List.length_replicate]

theorem drop_padded {bytes : List U8} {length : Nat} (h : bytes.length = length) (rest : List U8) :
    (padded bytes ++ rest).drop (length + padding length) = rest := by
  rw [← h]
  exact List.drop_left' (padded_length bytes)

/-! ## Names -/

def charByte (c : Char) : U8 := BitVec.ofNat 8 c.toNat

def byteChar (b : U8) : Char := Char.ofNat b.toNat

def isName (name : List Char) : Bool := name.all fun c => decide (0 < c.toNat ∧ c.toNat < 128)

def nameBytes (name : List Char) : List U8 := name.map charByte ++ [0]

/-- The text before the first zero. -/
def text (bytes : List U8) : List Char := (bytes.takeWhile fun b => b != 0).map byteChar

def readName (bytes : List U8) : Option (List Char × List U8) :=
  let length := (text bytes).length + 1
  if length ≤ bytes.length then some (text bytes, bytes.drop (length + padding length)) else none

@[simp] theorem nameBytes_length (name : List Char) : (nameBytes name).length = name.length + 1 := by
  simp [nameBytes]

theorem toNat_charByte {c : Char} (h : c.toNat < 128) : (charByte c).toNat = c.toNat := by
  rw [charByte, BitVec.toNat_ofNat, Nat.mod_eq_of_lt (by omega)]

theorem text_nameBytes {name : List Char} (h : isName name = true) (rest : List U8) :
    text (nameBytes name ++ rest) = name := by
  have hchars : ∀ c ∈ name, 0 < c.toNat ∧ c.toNat < 128 := fun c hc => of_decide_eq_true (List.all_eq_true.1 h c hc)
  have hbytes : ∀ b ∈ name.map charByte, (b != 0) = true := by
    intro b hb
    obtain ⟨c, hc, rfl⟩ := List.mem_map.1 hb
    obtain ⟨hpos, hlt⟩ := hchars c hc
    rw [bne_iff_ne]
    intro hzero
    have hnat := toNat_charByte hlt
    rw [hzero] at hnat
    exact Nat.ne_of_gt hpos hnat.symm
  have hback : (name.map charByte).map byteChar = name := by
    rw [List.map_map]
    refine (List.map_congr_left fun c hc => ?_).trans (List.map_id name)
    rw [Function.comp_apply, byteChar, toNat_charByte (hchars c hc).2, Char.ofNat_toNat]
    rfl
  unfold text nameBytes
  rw [List.append_assoc, List.takeWhile_append_of_pos hbytes, List.singleton_append,
    List.takeWhile_cons_of_neg (by simp), List.append_nil, hback]

theorem readName_nameBytes {name : List Char} (h : isName name = true) (rest : List U8) :
    readName (padded (nameBytes name) ++ rest) = some (name, rest) := by
  have htext : text (padded (nameBytes name) ++ rest) = name := by
    rw [padded, List.append_assoc]
    exact text_nameBytes h _
  have hlength : name.length + 1 ≤ (padded (nameBytes name) ++ rest).length := by
    rw [List.length_append, padded_length, nameBytes_length]
    omega
  unfold readName
  dsimp only
  rw [htext, if_pos hlength, drop_padded (nameBytes_length name)]

/-! ## The names of properties -/

def offsetOf (name : List Char) : List (List Char) → Nat
  | [] => 0
  | other :: names => if other = name then 0 else other.length + 1 + offsetOf name names

theorem text_offsetOf {name : List Char} : ∀ {names : List (List Char)}, name ∈ names → names.all isName = true →
    text ((names.flatMap nameBytes).drop (offsetOf name names)) = name
  | other :: names, hmem, hnames => by
    rw [List.all_cons, Bool.and_eq_true] at hnames
    rw [List.flatMap_cons, offsetOf]
    by_cases hother : other = name
    · subst hother
      rw [if_pos rfl, List.drop_zero]
      exact text_nameBytes hnames.1 _
    · rw [if_neg hother, ← List.drop_drop, List.drop_left' (nameBytes_length other)]
      exact text_offsetOf (List.mem_of_ne_of_mem (Ne.symm hother) hmem) hnames.2

theorem offsetOf_le (name : List Char) : ∀ names : List (List Char), offsetOf name names ≤ (names.flatMap nameBytes).length
  | [] => Nat.le_refl 0
  | other :: names => by
    have ih := offsetOf_le name names
    rw [offsetOf, List.flatMap_cons, List.length_append, nameBytes_length]
    split
    · exact Nat.zero_le _
    · omega

/-! ## The tree -/

def beginNode : Nat := 1
def endNode : Nat := 2
def prop : Nat := 3
def endTree : Nat := 9

section Tokens

variable (names : List (List Char))

def propertyBytes (p : String × List U8) : List U8 :=
  word prop ++ (word p.2.length ++ (word (offsetOf p.1.toList names) ++ padded p.2))

mutual

/-- A node after its first token. -/
def nodeBytes : DtNode → List U8
  | .node name properties children =>
    padded (nameBytes name) ++ (properties.flatMap (propertyBytes names) ++ (nodesBytes children ++ word endNode))

def nodesBytes : List DtNode → List U8
  | [] => []
  | c :: cs => word beginNode ++ (nodeBytes c ++ nodesBytes cs)

end

mutual

/-- The names in the tree can be written, those of properties as offsets. -/
def named : DtNode → Bool
  | .node name properties children =>
    isName name && properties.all (fun p => names.contains p.1.toList) && allNamed children

def allNamed : List DtNode → Bool
  | [] => true
  | c :: cs => named c && allNamed cs

end

end Tokens

section Reader

variable (block : List U8)

def readProperty (bytes : List U8) : Option ((String × List U8) × List U8) :=
  (readWords 2 bytes).bind fun ws =>
    let length := ws.1.getD 0 0
    let offset := ws.1.getD 1 0
    if length + padding length ≤ ws.2.length then
      some ((String.ofList (text (block.drop offset)), ws.2.take length), ws.2.drop (length + padding length))
    else none

def readProperties : Nat → List U8 → Option (List (String × List U8) × List U8)
  | 0, _ => none
  | fuel + 1, bytes =>
    (readWord bytes).bind fun token =>
      if token.1 = prop then
        (readProperty block token.2).bind fun p =>
          (readProperties fuel p.2).map fun ps => (p.1 :: ps.1, ps.2)
      else some ([], bytes)

def readNodes (readNode : List U8 → Option (DtNode × List U8)) : Nat → List U8 → Option (List DtNode × List U8)
  | 0, _ => none
  | fuel + 1, bytes =>
    (readWord bytes).bind fun token =>
      if token.1 = beginNode then
        (readNode token.2).bind fun c => (readNodes readNode fuel c.2).map fun cs => (c.1 :: cs.1, cs.2)
      else if token.1 = endNode then some ([], token.2)
      else none

def readNode : Nat → List U8 → Option (DtNode × List U8)
  | 0, _ => none
  | fuel + 1, bytes =>
    (readName bytes).bind fun name =>
      (readProperties block (fuel + 1) name.2).bind fun properties =>
        (readNodes (readNode fuel) (fuel + 1) properties.2).map fun children =>
          (.node name.1 properties.1 children.1, children.2)

end Reader

section RoundTrip

variable {names : List (List Char)} (hnames : names.all isName = true)
  (hblock : (names.flatMap nameBytes).length < 2 ^ 32)

include hnames hblock

theorem readProperty_propertyBytes {p : String × List U8} (hp : names.contains p.1.toList = true)
    (hlength : p.2.length < 2 ^ 32) (rest : List U8) :
    readProperty (names.flatMap nameBytes)
        (word p.2.length ++ (word (offsetOf p.1.toList names) ++ (padded p.2 ++ rest))) = some (p, rest) := by
  have hwords := readWords_flatMap (padded p.2 ++ rest) [p.2.length, offsetOf p.1.toList names] (by
    simp only [List.forall_mem_cons]
    exact ⟨hlength, Nat.lt_of_le_of_lt (offsetOf_le _ names) hblock, fun _ h => by cases h⟩)
  simp only [List.flatMap_cons, List.flatMap_nil, List.append_nil, List.append_assoc, List.length_cons,
    List.length_nil] at hwords
  have hpadded : p.2.length + padding p.2.length ≤ (padded p.2 ++ rest).length := by
    rw [List.length_append, padded_length]
    omega
  have hvalue : (padded p.2 ++ rest).take p.2.length = p.2 := by
    rw [padded, List.append_assoc, List.take_left' rfl]
  rw [readProperty, hwords, Option.bind_some]
  simp only [List.getD_cons_zero, List.getD_cons_succ]
  rw [if_pos hpadded, hvalue, drop_padded rfl, text_offsetOf (List.contains_iff_mem.1 hp) hnames, String.ofList_toList]

/-- What follows the properties is the first token of a child, or the last of the node. -/
theorem readProperties_flatMap {tail : List U8} {token : Nat} {rest : List U8}
    (htail : readWord tail = some (token, rest)) (htoken : token ≠ prop) : ∀ {properties : List (String × List U8)} {fuel : Nat},
    properties.all (fun p => names.contains p.1.toList) = true →
    (properties.flatMap (propertyBytes names)).length < 2 ^ 32 → properties.length < fuel →
      readProperties (names.flatMap nameBytes) fuel (properties.flatMap (propertyBytes names) ++ tail) =
        some (properties, tail)
  | [], fuel + 1, _, _, _ => by
    rw [List.flatMap_nil, List.nil_append, readProperties, htail, Option.bind_some, if_neg htoken]
  | p :: properties, fuel + 1, hall, hlength, hfuel => by
    rw [List.all_cons, Bool.and_eq_true] at hall
    rw [List.flatMap_cons, List.length_append] at hlength
    have hvalue : p.2.length < 2 ^ 32 := by
      simp only [propertyBytes, List.length_append, word_length, padded_length] at hlength
      omega
    have ih := readProperties_flatMap htail htoken hall.2 (by omega) (Nat.lt_of_succ_lt_succ hfuel)
    rw [List.flatMap_cons, propertyBytes]
    simp only [List.append_assoc]
    rw [readProperties, readWord_word (by decide), Option.bind_some, if_pos rfl,
      readProperty_propertyBytes hnames hblock hall.1 hvalue, Option.bind_some, ih]
    rfl

omit hnames hblock in
theorem length_le_flatMap : ∀ properties : List (String × List U8),
    properties.length ≤ (properties.flatMap (propertyBytes names)).length
  | [] => Nat.le_refl 0
  | p :: properties => by
    have ih := length_le_flatMap properties
    rw [List.flatMap_cons, List.length_append, List.length_cons, propertyBytes, List.length_append, word_length]
    omega

omit hnames hblock in
theorem length_le_nodesBytes : ∀ nodes : List DtNode, nodes.length ≤ (nodesBytes names nodes).length
  | [] => Nat.zero_le _
  | c :: cs => by
    have ih := length_le_nodesBytes cs
    rw [nodesBytes, List.length_append, List.length_append, List.length_cons, word_length]
    omega

omit hnames hblock in
theorem readWord_nodesBytes (rest : List U8) : ∀ nodes : List DtNode, ∃ token rest',
    readWord (nodesBytes names nodes ++ (word endNode ++ rest)) = some (token, rest') ∧ token ≠ prop
  | [] => ⟨endNode, rest, by rw [nodesBytes, List.nil_append, readWord_word (by decide)], by decide⟩
  | c :: cs => by
    refine ⟨beginNode, nodeBytes names c ++ nodesBytes names cs ++ (word endNode ++ rest), ?_, by decide⟩
    rw [nodesBytes, List.append_assoc, readWord_word (by decide)]

end RoundTrip

mutual

theorem readNode_nodeBytes {names : List (List Char)} (hnames : names.all isName = true)
    (hblock : (names.flatMap nameBytes).length < 2 ^ 32) : ∀ (n : DtNode) (fuel : Nat) (rest : List U8),
    named names n = true → (nodeBytes names n).length < 2 ^ 32 → (nodeBytes names n).length < fuel →
      readNode (names.flatMap nameBytes) fuel (nodeBytes names n ++ rest) = some (n, rest)
  | .node name properties children, fuel + 1, rest, hn, hlength, hfuel => by
    rw [named, Bool.and_eq_true, Bool.and_eq_true] at hn
    rw [nodeBytes] at hlength hfuel ⊢
    simp only [List.length_append, word_length] at hlength hfuel
    have hproperties := @length_le_flatMap names properties
    have hchildren := @length_le_nodesBytes names children
    obtain ⟨token, rest', htoken, hne⟩ := @readWord_nodesBytes names rest children
    simp only [List.append_assoc]
    rw [readNode, readName_nameBytes hn.1.1, Option.bind_some,
      readProperties_flatMap hnames hblock htoken hne hn.1.2 (by omega) (by omega), Option.bind_some,
      readNodes_nodesBytes hnames hblock children fuel (fuel + 1) rest hn.2 (by omega) (by omega) (by omega)]
    rfl

theorem readNodes_nodesBytes {names : List (List Char)} (hnames : names.all isName = true)
    (hblock : (names.flatMap nameBytes).length < 2 ^ 32) : ∀ (nodes : List DtNode) (fuel count : Nat) (rest : List U8),
    allNamed names nodes = true → (nodesBytes names nodes).length < 2 ^ 32 →
    (nodesBytes names nodes).length < fuel + 4 → nodes.length < count →
      readNodes (readNode (names.flatMap nameBytes) fuel) count (nodesBytes names nodes ++ (word endNode ++ rest)) =
        some (nodes, rest)
  | [], fuel, count + 1, rest, _, _, _, _ => by
    rw [nodesBytes, List.nil_append, readNodes, readWord_word (by decide), Option.bind_some,
      if_neg (show endNode ≠ beginNode by decide), if_pos rfl]
  | c :: cs, fuel, count + 1, rest, hn, hlength, hfuel, hcount => by
    rw [allNamed, Bool.and_eq_true] at hn
    rw [nodesBytes] at hlength hfuel ⊢
    simp only [List.length_append, word_length] at hlength hfuel
    have hc := readNode_nodeBytes hnames hblock c fuel (nodesBytes names cs ++ (word endNode ++ rest)) hn.1 (by omega)
      (by omega)
    have hcs := readNodes_nodesBytes hnames hblock cs fuel count rest hn.2 (by omega) (by omega)
      (Nat.lt_of_succ_lt_succ hcount)
    simp only [List.append_assoc]
    rw [readNodes, readWord_word (by decide), Option.bind_some, if_pos rfl, hc, Option.bind_some, hcs]
    rfl

end

/-! ## The blob -/

def magic : Nat := 0xd00dfeed

mutual

def propertyNames : DtNode → List (List Char)
  | .node _ properties children => properties.map (fun p => p.1.toList) ++ allPropertyNames children

def allPropertyNames : List DtNode → List (List Char)
  | [] => []
  | c :: cs => propertyNames c ++ allPropertyNames cs

end

def structBlock (names : List (List Char)) (n : DtNode) : List U8 :=
  word beginNode ++ (nodeBytes names n ++ word endTree)

def stringsBlock (names : List (List Char)) : List U8 := names.flatMap nameBytes

/-- Offsets of the blocks, versions 17 and 16, the boot CPU, and the sizes of the two blocks. -/
def header (structSize stringsSize : Nat) : List Nat :=
  [magic, 56 + structSize + stringsSize, 56, 56 + structSize, 40, 17, 16, 0, stringsSize, structSize]

def flatten (names : List (List Char)) (n : DtNode) : List U8 :=
  (header (structBlock names n).length (stringsBlock names).length).flatMap word ++
    (List.replicate 16 0 ++ (structBlock names n ++ stringsBlock names))

def canFlatten (names : List (List Char)) (n : DtNode) : Bool :=
  names.all isName && named names n && decide ((flatten names n).length < 2 ^ 32)

def toDtb (n : DtNode) : List U8 :=
  let names := (propertyNames n).eraseDups
  if canFlatten names n then flatten names n else []

def readTree (tokens strings : List U8) : Option DtNode :=
  (readWord tokens).bind fun first =>
    if first.1 = beginNode then
      (readNode strings tokens.length first.2).bind fun n =>
        (readWord n.2).bind fun last => if last.1 = endTree then some n.1 else none
    else none

def fromRaw (bytes : List U8) : Option DtNode :=
  (readWords 10 bytes).bind fun ws =>
    let field := fun i => ws.1.getD i 0
    if field 0 = magic ∧ field 1 ≤ bytes.length ∧ 16 ≤ field 5 ∧ field 6 ≤ 17 then
      readTree ((bytes.drop (field 2)).take (field 9)) ((bytes.drop (field 3)).take (field 8))
    else none

theorem readTree_structBlock {names : List (List Char)} {n : DtNode} (hnames : names.all isName = true)
    (hblock : (stringsBlock names).length < 2 ^ 32) (hn : named names n = true)
    (hlength : (structBlock names n).length < 2 ^ 32) :
    readTree (structBlock names n) (stringsBlock names) = some n := by
  have hsize : (structBlock names n).length = (nodeBytes names n).length + 8 := by
    simp only [structBlock, List.length_append, word_length]
    omega
  have hnode : readNode (stringsBlock names) (structBlock names n).length (nodeBytes names n ++ word endTree) =
      some (n, word endTree) :=
    readNode_nodeBytes hnames hblock n _ _ hn (by omega) (by omega)
  have hlast : readWord (word endTree) = some (endTree, []) := by
    have h := readWord_word (show endTree < 2 ^ 32 by decide) []
    rwa [List.append_nil] at h
  have hfirst : readWord (structBlock names n) = some (beginNode, nodeBytes names n ++ word endTree) :=
    readWord_word (by decide) _
  rw [readTree, hfirst, Option.bind_some, if_pos rfl, hnode, Option.bind_some, hlast, Option.bind_some, if_pos rfl]

/-- **A tree that is written is read back.** -/
theorem fromRaw_flatten {names : List (List Char)} {n : DtNode} (h : canFlatten names n = true) :
    fromRaw (flatten names n) = some n := by
  simp only [canFlatten, Bool.and_eq_true, decide_eq_true_eq] at h
  obtain ⟨⟨hnames, hn⟩, hlength⟩ := h
  have hheader : ((header (structBlock names n).length (stringsBlock names).length).flatMap word).length = 40 := by
    simp [header]
  have hsize : (flatten names n).length = 56 + (structBlock names n).length + (stringsBlock names).length := by
    rw [flatten, List.length_append, hheader]
    simp only [List.length_append, List.length_replicate]
    omega
  have hwords := readWords_flatMap (List.replicate 16 0 ++ (structBlock names n ++ stringsBlock names))
    (header (structBlock names n).length (stringsBlock names).length) (by
      simp only [header, magic, List.forall_mem_cons]
      exact ⟨by omega, by omega, by omega, by omega, by omega, by omega, by omega, by omega, by omega, by omega,
        fun _ h => by cases h⟩)
  have hstruct : (flatten names n).drop 56 = structBlock names n ++ stringsBlock names := by
    rw [flatten, ← List.append_assoc]
    exact List.drop_left' (by rw [List.length_append, hheader, List.length_replicate])
  have hstrings : (flatten names n).drop (56 + (structBlock names n).length) = stringsBlock names := by
    rw [← List.drop_drop, hstruct, List.drop_left' rfl]
  have hread : readWords 10 (flatten names n) = some (header (structBlock names n).length (stringsBlock names).length,
      List.replicate 16 0 ++ (structBlock names n ++ stringsBlock names)) := hwords
  rw [fromRaw, hread, Option.bind_some]
  simp only [header, List.getD_cons_zero, List.getD_cons_succ, hsize, hstruct, hstrings, List.take_left' rfl,
    List.take_of_length_le (Nat.le_refl _)]
  rw [if_pos (by simp)]
  exact readTree_structBlock hnames (by omega) hn (by omega)

theorem eq_of_fromRaw_toDtb {n n' : DtNode} (h : fromRaw (toDtb n) = some n') : n' = n := by
  unfold toDtb at h
  dsimp only at h
  split at h
  · rename_i hcan
    cases (fromRaw_flatten hcan).symm.trans h
    rfl
  · cases h

end Fdt

/-! ## A toolkit -/

def asciiStr (value : List U8) : Option (List Char) :=
  if value.getLast? = some 0 ∧ value.dropLast.all (fun b => decide (0 < b ∧ b < 128)) then
    some (value.dropLast.map Fdt.byteChar)
  else none

def specCellCount (default : Nat) : Option (List U8) → Nat
  | none => default
  | some value => if value.length = 4 then ofBe value else default

def specDtoolkit : Dtoolkit where
  fromRaw := Fdt.fromRaw
  toDtb := Fdt.toDtb
  child n name := n.children.find? (fun c => nameMatches name c.name)
  cellCount := specCellCount
  reg parent n := (n.property "reg").bind (decodeReg (specCellCount 2 (parent.property "#address-cells"))
    (specCellCount 1 (parent.property "#size-cells")))
  toU64 cells := if cells.length ≤ 8 then some (BitVec.ofNat 64 (ofBe cells)) else none
  asStr := asciiStr
  removeChild n name :=
    if n.children.any (fun c => c.name == name) then
      some (.node n.name n.properties (n.children.filter (fun c => c.name != name)))
    else none
  addChild n c := .node n.name n.properties (n.children.filter (fun c' => c'.name != c.name) ++ [c])
  eq_of_fromRaw_toDtb := Fdt.eq_of_fromRaw_toDtb
  child_eq_some h := ⟨List.mem_of_find?_eq_some h, by simpa using List.find?_some h⟩
  child_eq_none h c hc := by simpa using List.find?_eq_none.1 h c hc
  cellCount_none _ := rfl
  cellCount_some _ h := if_pos h
  reg_cells h := by
    obtain ⟨value, -, hvalue⟩ := Option.bind_eq_some_iff.1 h
    exact length_of_mem_decodeReg hvalue
  reg_eq _ _ _ := rfl
  toU64_eq h := if_pos h
  toU64_eq_none h := if_neg (Nat.not_le.2 h)
  removeChild_eq_some {n n' name} h := by
    split at h
    · cases h
      exact ⟨rfl, fun c => by simp [DtNode.children]⟩
    · cases h
  properties_addChild _ _ := rfl
  mem_addChild n c c' := by simp [DtNode.children, or_comm]

end Ritm
