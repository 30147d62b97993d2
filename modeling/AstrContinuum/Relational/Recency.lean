import Mathlib.Data.Finset.Card

/-!
# Recency

An ordered dictionary as the list of its entries, the least recently used first. `touch` assigns a key
and moves it to the end, `evict` drops the oldest entries past a limit. An entry survives while fewer
other keys than the limit are touched (`Holds.evict`).
-/

namespace Relational

variable {κ β : Type} [DecidableEq κ] {key other : κ} {value : β} {entries : List (κ × β)}
  {newer : Finset κ}

/-- `entries[key] = value`, at the end. -/
def touch (key : κ) (value : β) (entries : List (κ × β)) : List (κ × β) :=
  entries.filter (fun entry => entry.1 ≠ key) ++ [(key, value)]

omit [DecidableEq κ] in
/-- The newest entries, at most `limit` of them. -/
def evict (limit : Nat) (entries : List (κ × β)) : List (κ × β) :=
  entries.drop (entries.length - limit)

/-- The value of a key. -/
def valueOf (key : κ) (entries : List (κ × β)) : Option β :=
  (entries.find? fun entry => entry.1 = key).map Prod.snd

/-- No key stands twice. -/
def DistinctKeys (entries : List (κ × β)) : Prop :=
  (entries.map Prod.fst).Nodup

/-- The key has the value, and only keys of `newer` are newer. -/
def Holds (key : κ) (value : β) (newer : Finset κ) (entries : List (κ × β)) : Prop :=
  ∃ before after, entries = before ++ (key, value) :: after ∧ ∀ entry ∈ after, entry.1 ∈ newer

/-- An entry of `touch` is the new one or an old one under another key. -/
theorem mem_touch {entry : κ × β} :
    entry ∈ touch key value entries ↔ entry ∈ entries ∧ entry.1 ≠ key ∨ entry = (key, value) := by
  simp [touch]

/-- Touching keeps the keys distinct. -/
theorem DistinctKeys.touch (h : DistinctKeys entries) (key : κ) (value : β) :
    DistinctKeys (Relational.touch key value entries) := by
  unfold DistinctKeys Relational.touch
  rw [List.map_append, List.nodup_append]
  refine ⟨?_, List.nodup_singleton _, ?_⟩
  · exact h.sublist ((List.filter_sublist).map Prod.fst)
  · intro first hfirst second hsecond
    obtain ⟨entry, hentry, rfl⟩ := List.mem_map.mp hfirst
    obtain rfl := List.mem_singleton.mp hsecond
    exact of_decide_eq_true (List.mem_filter.mp hentry).2

omit [DecidableEq κ] in
/-- So does evicting. -/
theorem DistinctKeys.evict (h : DistinctKeys entries) (limit : Nat) :
    DistinctKeys (Relational.evict limit entries) :=
  h.sublist ((List.drop_sublist _ _).map Prod.fst)

omit [DecidableEq κ] in
/-- At most `limit` entries are left. -/
theorem length_evict_le (limit : Nat) (entries : List (κ × β)) :
    (evict limit entries).length ≤ limit := by
  unfold evict
  rw [List.length_drop]
  omega

/-- A value that is found stands among the entries. -/
theorem mem_of_valueOf (h : valueOf key entries = some value) : (key, value) ∈ entries := by
  obtain ⟨entry, hfind, rfl⟩ := Option.map_eq_some_iff.mp h
  have hfound := List.find?_some hfind
  obtain rfl : entry.1 = key := of_decide_eq_true hfound
  exact List.mem_of_find?_eq_some hfind

/-- Under distinct keys an entry that stands there is found. -/
theorem valueOf_of_mem (h : DistinctKeys entries) (hmem : (key, value) ∈ entries) :
    valueOf key entries = some value := by
  unfold valueOf
  cases hfind : entries.find? fun entry => entry.1 = key with
  | none => exact absurd (decide_eq_true rfl) (List.find?_eq_none.mp hfind _ hmem)
  | some entry =>
      have hfound := List.find?_some hfind
      have hkey : entry.1 = key := of_decide_eq_true hfound
      have hsame : entry = (key, value) :=
        List.inj_on_of_nodup_map h (List.mem_of_find?_eq_some hfind) hmem hkey
      rw [hsame]
      rfl

/-- Touching a key that stands there adds no entry. -/
theorem length_touch_le (hmem : (key, value) ∈ entries) (next : β) :
    (touch key next entries).length ≤ entries.length := by
  have hfewer : (entries.filter fun entry => entry.1 ≠ key).length < entries.length :=
    List.length_filter_lt_length_iff_exists.mpr ⟨_, hmem, by simp⟩
  unfold touch
  rw [List.length_append, List.length_singleton]
  exact hfewer

omit [DecidableEq κ] in
/-- An entry that is held stands among the entries. -/
theorem Holds.mem (h : Holds key value newer entries) : (key, value) ∈ entries := by
  obtain ⟨before, after, rfl, -⟩ := h
  exact List.mem_append_right _ List.mem_cons_self

/-- Nothing is newer than what was touched last. -/
theorem holds_touch (key : κ) (value : β) (newer : Finset κ) (entries : List (κ × β)) :
    Holds key value newer (touch key value entries) :=
  ⟨_, [], rfl, fun _ hentry => absurd hentry List.not_mem_nil⟩

/-- Touching another key of `newer` moves only this one behind the entry. -/
theorem Holds.touch (h : Holds key value newer entries) (hother : other ≠ key) (hnewer : other ∈ newer)
    (next : β) :
    Holds key value newer (Relational.touch other next entries) := by
  obtain ⟨before, after, rfl, hafter⟩ := h
  refine ⟨before.filter (fun entry => entry.1 ≠ other),
    after.filter (fun entry => entry.1 ≠ other) ++ [(other, next)], ?_, fun entry hentry => ?_⟩
  · unfold Relational.touch
    have hkeep : decide ((key, value).1 ≠ other) = true := decide_eq_true hother.symm
    rw [List.filter_append, List.filter_cons, if_pos hkeep, List.append_assoc, List.cons_append]
  · rcases List.mem_append.mp hentry with hold | hnew
    · exact hafter entry (List.mem_filter.mp hold).1
    · rw [List.mem_singleton.mp hnew]
      exact hnewer

/-- An entry is not evicted while fewer keys than the limit are newer. -/
theorem Holds.evict (h : Holds key value newer entries) (hdistinct : DistinctKeys entries) {limit : Nat}
    (hlimit : newer.card < limit) : Holds key value newer (Relational.evict limit entries) := by
  obtain ⟨before, after, rfl, hafter⟩ := h
  have hnodup : (after.map Prod.fst).Nodup := by
    unfold DistinctKeys at hdistinct
    rw [List.map_append, List.map_cons] at hdistinct
    exact (List.nodup_cons.mp (List.nodup_append.mp hdistinct).2.1).2
  have hcount : after.length ≤ newer.card := by
    have hmapped : (after.map Prod.fst).length = after.length := List.length_map _
    rw [← hmapped, ← List.toFinset_card_of_nodup hnodup]
    refine Finset.card_le_card fun key' hkey' => ?_
    obtain ⟨entry, hentry, rfl⟩ := List.mem_map.mp (List.mem_toFinset.mp hkey')
    exact hafter entry hentry
  -- only entries before this one are dropped
  have hdropped : (before ++ (key, value) :: after).length - limit ≤ before.length := by
    rw [List.length_append, List.length_cons]
    omega
  refine ⟨before.drop ((before ++ (key, value) :: after).length - limit), after, ?_, hafter⟩
  exact List.drop_append_of_le_length hdropped

end Relational
