import Mathlib.Algebra.Order.BigOperators.Group.List
import AstrContinuum.Reorganization.Scripts

/-!
# The bytes of a surface

`Utf8ByteTokenCounter` counts the bytes of a text. `buildCapsule_bytes` splits the count of a capsule that
a reorganization builds into a frame, which the capsules that are folded determine, the items, the text of
the source coverage and the digits of the release counter. Another item makes it larger, whatever the
coverage becomes, as long as no float has a longer text than an item can have.
-/

namespace AstrContinuum

open Checked

/-! ## Texts -/

/-- The bytes of some texts. -/
def totalBytes (texts : List String) : Nat :=
  (texts.map String.utf8ByteSize).sum

/-- Another text adds its bytes. -/
theorem totalBytes_append (texts : List String) (text : String) :
    totalBytes (texts ++ [text]) = totalBytes texts + text.utf8ByteSize := by
  simp [totalBytes]

/-- The order of some texts does not change their bytes. -/
theorem totalBytes_perm {texts others : List String} (h : texts.Perm others) :
    totalBytes texts = totalBytes others :=
  (h.map _).sum_eq

/-- The bytes of some texts with commas between them. -/
theorem intercalate_bytes (texts : List String) :
    (",".intercalate texts).utf8ByteSize = totalBytes texts + (texts.length - 1) := by
  have hcomma : ",".utf8ByteSize = 1 := by decide
  induction texts with
  | nil => rfl
  | cons text texts ih =>
      cases texts with
      | nil => simp [totalBytes]
      | cons other texts =>
          rw [String.intercalate_cons_cons, String.utf8ByteSize_append, String.utf8ByteSize_append,
            ih, hcomma]
          simp only [totalBytes, List.map_cons, List.sum_cons, List.length_cons]
          omega

/-- The bytes of an array. -/
theorem jsonArray_bytes (items : List String) :
    (jsonArray items).utf8ByteSize = totalBytes items + (items.length - 1) + 2 := by
  have hopen : "[".utf8ByteSize = 1 := by decide
  have hclose : "]".utf8ByteSize = 1 := by decide
  rw [jsonArray, String.utf8ByteSize_append, String.utf8ByteSize_append, intercalate_bytes, hopen,
    hclose]
  omega

/-- Another item adds its bytes, and a comma at most. -/
theorem jsonArray_append (items : List String) (item : String) :
    (jsonArray items).utf8ByteSize + item.utf8ByteSize ≤
      (jsonArray (items ++ [item])).utf8ByteSize := by
  rw [jsonArray_bytes, jsonArray_bytes, totalBytes_append, List.length_append]
  omega

/-- The order of the items does not change the bytes of an array. -/
theorem jsonArray_perm {items others : List String} (h : items.Perm others) :
    (jsonArray items).utf8ByteSize = (jsonArray others).utf8ByteSize := by
  rw [jsonArray_bytes, jsonArray_bytes, totalBytes_perm h, h.length_eq]

/-- A string has its two quotes. -/
theorem two_le_jsonString (text : String) : 2 ≤ (jsonString text).utf8ByteSize := by
  refine le_trans ?_ (Utf8.length_le_utf8ByteSize _)
  simp only [jsonString_eq, String.length_ofList, List.length_append, List.length_cons,
    List.length_nil]
  omega

/-- The bytes of a member, with a colon and a comma. -/
def memberBytes (member : String × String) : Nat :=
  (jsonString member.1).utf8ByteSize + member.2.utf8ByteSize + 2

/-- The bytes of an object with at least one member. -/
theorem writeMembers_bytes {members : List (String × String)} (h : members ≠ []) :
    (writeMembers members).utf8ByteSize = (members.map memberBytes).sum + 1 := by
  have hopen : "\x7b".utf8ByteSize = 1 := by decide
  have hclose : "\x7d".utf8ByteSize = 1 := by decide
  have hcolon : ":".utf8ByteSize = 1 := by decide
  have hperm := List.perm_insertionSort (fun left right => left.1 ≤ right.1) members
  have hlength : 1 ≤ members.length := List.length_pos_iff.mpr h
  have htotal (members : List (String × String)) :
      totalBytes (members.map fun member => jsonString member.1 ++ ":" ++ member.2) +
        members.length = (members.map memberBytes).sum := by
    induction members with
    | nil => rfl
    | cons member members ih =>
        simp only [totalBytes, memberBytes, List.map_cons, List.sum_cons, List.length_cons,
          String.utf8ByteSize_append, hcolon] at ih ⊢
        omega
  unfold writeMembers
  dsimp only
  rw [String.utf8ByteSize_append, String.utf8ByteSize_append, intercalate_bytes, hopen, hclose,
    totalBytes_perm (hperm.map _), List.length_map, hperm.length_eq, ← htotal]
  omega

/-- A numeral of one digit has one byte. -/
theorem toString_bytes_of_lt {n : Nat} (h : n ≤ 9) : (toString n).utf8ByteSize = 1 := by
  revert n
  decide

/-- A numeral of more digits has more bytes. -/
theorem two_le_toString_bytes {n : Nat} (h : 10 ≤ n) : 2 ≤ (toString n).utf8ByteSize := by
  refine le_trans ?_ (Utf8.length_le_utf8ByteSize _)
  have hlength := (Nat.length_repr_le_iff (n := n) (k := 1) Nat.one_pos).not.mpr (by omega)
  exact Nat.lt_of_not_le hlength

/-! ## What is documented of the parameters -/

/-- A digest is 64 hexadecimal digits. -/
def HexDigests [Hashlib] : Prop :=
  ∀ text, (Hashlib.sha256Hexdigest text).length = 64 ∧
    ∀ c ∈ (Hashlib.sha256Hexdigest text).toList, c ∈ "0123456789abcdef".toList

/-- What SHA-256 gives is 64 hexadecimal digits. -/
theorem hexDigests_sha256 : @HexDigests .sha256 := by
  intro text
  exact ⟨Sha256.hexdigest_length text, fun _ hc => Sha256.mem_hexdigest hc⟩

/-- The shortest text of a float between zero and one has at most 24 bytes. -/
def ShortFloats [WireText] : Prop :=
  ∀ value, (WireText.floatRepr value).utf8ByteSize ≤ 24

/-- A character that stands for itself in one byte. -/
def PlainChar (c : Char) : Prop :=
  jsonEscape c = [c] ∧ c.utf8Size = 1

instance (c : Char) : Decidable (PlainChar c) :=
  inferInstanceAs (Decidable (_ ∧ _))

/-- A string of plain characters has one byte for each and two quotes. -/
theorem jsonString_plain {text : String} (h : ∀ c ∈ text.toList, PlainChar c) :
    (jsonString text).utf8ByteSize = text.length + 2 := by
  have hescaped : ∀ chars : List Char, (∀ c ∈ chars, PlainChar c) →
      ((chars.flatMap jsonEscape).map Char.utf8Size).sum = chars.length := by
    intro chars hchars
    induction chars with
    | nil => rfl
    | cons c chars ih =>
        obtain ⟨hescape, hsize⟩ := hchars c List.mem_cons_self
        have hrest := ih fun d hd => hchars d (List.mem_cons_of_mem _ hd)
        rw [List.flatMap_cons, hescape, List.map_append, List.sum_append, hrest, List.map_singleton,
          List.sum_singleton, hsize, List.length_cons, Nat.add_comm]
  have hquote : Char.utf8Size '"' = 1 := by decide
  rw [jsonString_eq, Utf8.utf8ByteSize_ofList, List.map_append, List.sum_append, List.map_cons, List.sum_cons,
    hescaped _ h, List.map_singleton, List.sum_singleton, hquote, String.length_toList]
  omega

/-- The text of a capsule id does not depend on what is hashed. -/
theorem newCapsuleId_bytes [Hashlib] [WireText] (hdigests : HexDigests)
    (capsules : List ContextCapsuleEnvelope) (tokenBudget : Nat)
    (records : List ReorganizationRecord) :
    (jsonString (newCapsuleId capsules tokenBudget records)).utf8ByteSize = 32 := by
  unfold newCapsuleId
  dsimp only
  obtain ⟨hlength, hhex⟩ := hdigests (String.intercalate "|"
    (toString tokenBudget :: jsonArray (capsules.map fun capsule => capsule.fields.dump) ::
      records.map ReorganizationRecord.digestText))
  generalize Hashlib.sha256Hexdigest _ = digest at hlength hhex ⊢
  have hplain : ∀ c ∈ "reorg-0123456789abcdef".toList, PlainChar c := by decide
  have hprefix : ∀ c ∈ "reorg-".toList, c ∈ "reorg-0123456789abcdef".toList := by decide
  have hdigits : ∀ c ∈ "0123456789abcdef".toList, c ∈ "reorg-0123456789abcdef".toList := by decide
  rw [jsonString_plain]
  · have hsix : "reorg-".length = 6 := by decide
    rw [String.length_append, hsix, sliceTo, String.length_ofList, List.length_take,
      String.length_toList, hlength]
    decide
  · intro c hc
    rw [String.toList_append, sliceTo] at hc
    rcases List.mem_append.mp hc with hfixed | hdigit
    · exact hplain c ( hprefix c hfixed)
    · rw [String.toList_ofList] at hdigit
      exact hplain c (hdigits c (hhex c (List.mem_of_mem_take hdigit)))

/-! ## Capsules -/

section Surface

variable [WireText]

/-- The bytes of the items of a selection. -/
def Selection.bytes (selected : Selection) : Nat :=
  (ItemField.all.map fun field =>
    (jsonArray ((selected field).map CapsuleItem.surface)).utf8ByteSize).sum

/-- The bytes of a capsule that a selection and its records determine. -/
def CapsuleFields.load (fields : CapsuleFields) : Nat :=
  (jsonString fields.capsuleId).utf8ByteSize + Selection.bytes fields.items +
    (WireText.floatRepr fields.quality.sourceCoverage).utf8ByteSize +
    (toString fields.quality.coverageGap).utf8ByteSize

/-- The load is a part of the surface. -/
theorem CapsuleFields.load_le (fields : CapsuleFields) :
    fields.load ≤ fields.surface.utf8ByteSize := by
  unfold surface load Selection.bytes
  rw [writeMembers_bytes (by simp [members])]
  simp only [members, CapsuleQuality.surface, List.map_cons, List.map_nil, List.sum_cons, List.sum_nil,
    memberBytes, ItemField.all]
  rw [writeMembers_bytes (by simp)]
  simp only [List.map_cons, List.map_nil, List.sum_cons, List.sum_nil, memberBytes]
  omega

/-- Capsules that differ in their load only differ in the bytes of their load only. -/
theorem CapsuleFields.surface_bytes (fields : CapsuleFields) (capsuleId : String)
    (items : Selection) (sourceCoverage : UnitFloat) (coverageGap : Nat)
    {other : CapsuleFields}
    (hother : other =
      { fields with
        capsuleId := capsuleId
        items := items
        quality :=
          { fields.quality with sourceCoverage := sourceCoverage, coverageGap := coverageGap } }) :
    other.surface.utf8ByteSize + fields.load = fields.surface.utf8ByteSize + other.load := by
  subst hother
  unfold surface load Selection.bytes
  rw [writeMembers_bytes (by simp [members]), writeMembers_bytes (by simp [members])]
  simp only [members, CapsuleQuality.surface, List.map_cons, List.map_nil, List.sum_cons, List.sum_nil,
    memberBytes, ItemField.all]
  rw [writeMembers_bytes (by simp), writeMembers_bytes (by simp)]
  simp only [List.map_cons, List.map_nil, List.sum_cons, List.sum_nil, memberBytes]
  omega

/-- The items of a selection in another order have as many bytes. -/
theorem Selection.bytes_perm {selected other : Selection}
    (h : ∀ field, (selected field).Perm (other field)) : selected.bytes = other.bytes := by
  unfold Selection.bytes
  exact congrArg List.sum (List.map_congr_left fun field _ => jsonArray_perm ((h field).map _))

omit [WireText] in
/-- An object of four members, one of which names the sources, is longer than a float. -/
theorem writeMembers_longer {members : List (String × String)}
    (h : "source_event_ids" ∈ members.map Prod.fst) (hlength : 4 ≤ members.length) :
    25 ≤ (writeMembers members).utf8ByteSize := by
  have hsources : (jsonString "source_event_ids").utf8ByteSize = 18 := by decide +kernel
  have hbytes (members : List (String × String)) :
      4 * members.length ≤ (members.map memberBytes).sum := by
    induction members with
    | nil => exact Nat.zero_le _
    | cons member members ih =>
        have htwo := two_le_jsonString member.1
        rw [List.map_cons, List.sum_cons, List.length_cons, memberBytes]
        omega
  obtain ⟨⟨key, text⟩, hmember, hkey⟩ := List.mem_map.mp h
  obtain rfl : key = "source_event_ids" := hkey
  obtain ⟨before, after, rfl⟩ := List.append_of_mem hmember
  have hbefore := hbytes before
  have hafter := hbytes after
  rw [writeMembers_bytes (List.ne_nil_of_mem hmember), List.map_append, List.sum_append,
    List.map_cons, List.sum_cons, memberBytes, hsources]
  rw [List.length_append, List.length_cons] at hlength
  omega

/-- Every item is longer than a float. -/
theorem CapsuleItem.surface_bytes (item : CapsuleItem) : 25 ≤ item.surface.utf8ByteSize := by
  cases item <;> exact writeMembers_longer (by simp) (by simp)

/-- Another item adds its bytes. -/
theorem Selection.bytes_append (selected : Selection) (field : ItemField) (item : CapsuleItem) :
    selected.bytes + item.surface.utf8ByteSize ≤ (selected.append field item).bytes := by
  have hfield (other : ItemField) :
      (jsonArray ((selected other).map CapsuleItem.surface)).utf8ByteSize +
          (if other = field then item.surface.utf8ByteSize else 0) ≤
        (jsonArray ((selected.append field item other).map CapsuleItem.surface)).utf8ByteSize := by
    rw [Selection.append_apply]
    by_cases h : other = field
    · subst h
      rw [if_pos rfl, if_pos rfl, List.map_append, List.map_singleton]
      exact jsonArray_append _ _
    · rw [if_neg h, if_neg (Ne.symm h), List.append_nil, Nat.add_zero]
  have honce : (ItemField.all.map fun other =>
      if other = field then item.surface.utf8ByteSize else 0).sum = item.surface.utf8ByteSize := by
    cases field <;> simp [ItemField.all]
  unfold Selection.bytes
  rw [← honce, ← List.sum_map_add]
  exact List.sum_le_sum fun other _ => hfield other

end Surface

/-! ## Built capsules -/

section Building

variable [WireText] (first : ContextCapsuleEnvelope) (rest : List ContextCapsuleEnvelope)

/-- The bytes of the text of the source coverage. -/
def coverageBytes (selected : Selection) : Nat :=
  (WireText.floatRepr ⟨_, sourceCoverage_unit selected
    (sortedTexts ((first :: rest).flatMap fun capsule => capsule.sourceEventIds))⟩).utf8ByteSize

/-- The bytes that a selection and the number of its released items take. -/
def loadBytes (selected : Selection) (released : Nat) : Nat :=
  selected.bytes + coverageBytes first rest selected + (toString released).utf8ByteSize

/-- The items of a selection in another order take as many bytes. -/
theorem loadBytes_perm {selected other : Selection}
    (h : ∀ field, (selected field).Perm (other field)) (released : Nat) :
    loadBytes first rest selected released = loadBytes first rest other released := by
  have hcoverage (sources : List String) :
      sourceCoverage selected sources = sourceCoverage other sources := by
    have hrepresented : (ItemField.all.flatMap fun field =>
        (selected field).flatMap CapsuleItem.sourceEventIds).Perm (ItemField.all.flatMap fun field =>
          (other field).flatMap CapsuleItem.sourceEventIds) :=
      List.Perm.flatMap_left _ fun field _ => (h field).flatMap_right _
    unfold sourceCoverage
    dsimp only
    rw [hrepresented.dedup.length_eq]
  unfold loadBytes coverageBytes
  simp only [Selection.bytes_perm h, hcoverage]

/-- Another item takes more bytes, whatever the coverage becomes. -/
theorem loadBytes_append (hfloats : ShortFloats) (selected : Selection) (field : ItemField)
    (item : CapsuleItem) (released : Nat) :
    loadBytes first rest selected released <
      loadBytes first rest (selected.append field item) released := by
  have hitems := selected.bytes_append field item
  have hitem := item.surface_bytes
  have hcoverage : coverageBytes first rest selected ≤ 24 := hfloats _
  unfold loadBytes
  omega

/-- The release counter takes one byte up to nine. -/
theorem loadBytes_of_le {released : Nat} (h : released ≤ 9) (selected : Selection) :
    loadBytes first rest selected released = loadBytes first rest selected 0 := by
  unfold loadBytes
  rw [toString_bytes_of_lt h, toString_bytes_of_lt (Nat.zero_le 9)]

/-- The release counter never takes less than one byte. -/
theorem loadBytes_zero_le (selected : Selection) (released : Nat) :
    loadBytes first rest selected 0 ≤ loadBytes first rest selected released := by
  rcases Nat.lt_or_ge 9 released with h | h
  · have hmany := two_le_toString_bytes h
    unfold loadBytes
    rw [toString_bytes_of_lt (Nat.zero_le 9)]
    omega
  · exact (loadBytes_of_le first rest h selected).ge

/-- The release counter takes more than one byte from ten on. -/
theorem loadBytes_zero_lt {released : Nat} (h : 10 ≤ released) (selected : Selection) :
    loadBytes first rest selected 0 < loadBytes first rest selected released := by
  have hmany := two_le_toString_bytes h
  unfold loadBytes
  rw [toString_bytes_of_lt (Nat.zero_le 9)]
  omega

variable [Hashlib]

/-- The capsules `first :: rest` leave a frame of some bytes around every selection. -/
def Framed (frame : Nat) : Prop :=
  ∀ (selected : Selection) (records : List ReorganizationRecord) (tokenBudget : Nat)
    (fields : CapsuleFields), buildCapsule first rest selected records tokenBudget = .ok fields →
    fields.surface.utf8ByteSize =
      frame + loadBytes first rest selected (nonSummaryReleaseCount records)

/-- The capsules that are folded leave the same frame around every selection. -/
theorem buildCapsule_bytes (hdigests : HexDigests) : ∃ frame, Framed first rest frame := by
  obtain ⟨base, hbase⟩ := buildCapsule_returns first rest 0
    (fun _ => List.nodup_nil : ∀ field, ((fun _ => [] : Selection) field).Nodup) []
  refine ⟨base.surface.utf8ByteSize + 32 - base.load, ?_⟩
  intro selected records tokenBudget fields hfields
  have hunit := sourceCoverage_unit selected
    (sortedTexts ((first :: rest).flatMap fun capsule => capsule.sourceEventIds))
  have hother : fields =
      { base with
        capsuleId := newCapsuleId (first :: rest) tokenBudget records
        items := selected
        quality :=
          { base.quality with
            sourceCoverage := ⟨_, hunit⟩
            coverageGap := nonSummaryReleaseCount records } } := by
    unfold buildCapsule at hbase hfields
    obtain ⟨_, hbase⟩ | ⟨_, hbase⟩ := dite_eq_iff.mp hbase
    · obtain ⟨_, _, hbase⟩ := bind_ok.mp hbase
      obtain rfl := pure_ok.mp hbase
      obtain ⟨_, hfields⟩ | ⟨_, hfields⟩ := dite_eq_iff.mp hfields
      · obtain ⟨_, _, hfields⟩ := bind_ok.mp hfields
        exact (pure_ok.mp hfields).symm
      · exact absurd hfields throw_ok
    · exact absurd hbase throw_ok
  have hbytes := CapsuleFields.surface_bytes base _ _ _ _ hother
  have hload : fields.load =
      32 + loadBytes first rest selected (nonSummaryReleaseCount records) := by
    rw [hother]
    unfold CapsuleFields.load loadBytes coverageBytes
    dsimp only
    rw [newCapsuleId_bytes hdigests]
    omega
  have hle := base.load_le
  omega

end Building

end AstrContinuum
