import Mathlib.Data.List.Nodup
import Troupe.Lib.Result

/-! # Keyed lists

A `Vec` whose items carry a key no other item has. The code looks an item up by scanning
(`iter_mut().find`), changes it in place, and pushes a new item when there is none: `upsert`.

* `update` and `insert` may fail, and then nothing is changed.
* `insert` failing on its own models the callers that expect the key to be there.

`Indexed` ties a keyed list to the entries it was made from, one `upsert` for each entry that has a
key.

Results: **`upsert_isOk`** says when an `upsert` succeeds, **`upsert_ok`** what it leaves, and
**`indexed_upsert`** that an index stays one. -/

namespace Troupe.Lib

variable {α κ ε : Type}

/-- Change the first item under `k`, or push a new one. -/
def upsert [DecidableEq κ] (key : α → κ) (k : κ) (update : α → Except ε α) (insert : Except ε α) :
    List α → Except ε (List α)
  | [] => do
    let item ← insert
    .ok [item]
  | item :: rest =>
    if key item = k then do
      let item ← update item
      .ok (item :: rest)
    else do
      let rest ← upsert key k update insert rest
      .ok (item :: rest)

/-- No two items share a key. -/
def Keyed (key : α → κ) (items : List α) : Prop := items.Pairwise (key · ≠ key ·)

section Keyed

variable {key : α → κ} {items result : List α} {k : κ} {update : α → Except ε α}
  {insert : Except ε α}

theorem Keyed.eq (h : Keyed key items) {x y : α} (hx : x ∈ items) (hy : y ∈ items)
    (hxy : key x = key y) : x = y :=
  List.inj_on_of_nodup_map (List.pairwise_map.mpr h) hx hy hxy

theorem Keyed.append_singleton (h : Keyed key items) {item : α}
    (hnew : ∀ x ∈ items, key x ≠ key item) : Keyed key (items ++ [item]) := by
  refine List.pairwise_append.mpr ⟨h, List.pairwise_singleton _ _, ?_⟩
  intro x hx y hy
  rw [List.mem_singleton.mp hy]
  exact hnew x hx

theorem Keyed.filter (h : Keyed key items) (p : α → Bool) : Keyed key (items.filter p) :=
  List.Pairwise.filter p h

/-- The item an `upsert` writes: an update of the old one, or a new one. -/
def Written (key : α → κ) (k : κ) (update : α → Except ε α) (insert : Except ε α)
    (items : List α) (item : α) : Prop :=
  (∃ old ∈ items, key old = k ∧ update old = .ok item) ∨
    ((∀ old ∈ items, key old ≠ k) ∧ insert = .ok item)

theorem upsert_isOk [DecidableEq κ] (hkeyed : Keyed key items) :
    (∃ result, upsert key k update insert items = .ok result) ↔
      (∀ old ∈ items, key old = k → ∃ item, update old = .ok item) ∧
        ((∀ old ∈ items, key old ≠ k) → ∃ item, insert = .ok item) := by
  induction items with
  | nil =>
    simp only [upsert, bind_eq_ok, List.not_mem_nil, false_implies, implies_true, true_and,
      forall_const]
    constructor
    · rintro ⟨_, item, hinsert, -⟩
      exact ⟨item, hinsert⟩
    · rintro ⟨item, hinsert⟩
      exact ⟨[item], item, hinsert, rfl⟩
  | cons item rest ih =>
    obtain ⟨hitem, hrest⟩ := List.pairwise_cons.mp hkeyed
    unfold upsert
    by_cases hkey : key item = k
    · -- The scan stops here, and no later item has the key.
      rw [if_pos hkey]
      simp only [bind_eq_ok]
      constructor
      · rintro ⟨_, changed, hupdate, -⟩
        refine ⟨fun old hold hk => ?_, fun hnone => absurd hkey (hnone item List.mem_cons_self)⟩
        rcases List.mem_cons.mp hold with rfl | hold
        · exact ⟨changed, hupdate⟩
        · exact absurd (hkey.trans hk.symm) (hitem old hold)
      · rintro ⟨hupdates, -⟩
        obtain ⟨changed, hupdate⟩ := hupdates item List.mem_cons_self hkey
        exact ⟨changed :: rest, changed, hupdate, rfl⟩
    · rw [if_neg hkey]
      simp only [bind_eq_ok, List.forall_mem_cons, hkey, false_implies, true_and, ne_eq,
        not_false_eq_true]
      rw [← ih hrest]
      constructor
      · rintro ⟨_, changed, hupsert, -⟩
        exact ⟨changed, hupsert⟩
      · rintro ⟨changed, hupsert⟩
        exact ⟨item :: changed, changed, hupsert, rfl⟩

/-- **An `upsert` writes one item under its key and keeps the items under the other keys.** -/
theorem upsert_ok [DecidableEq κ] (hkeyed : Keyed key items)
    (hupdate : ∀ old item, key old = k → update old = .ok item → key item = k)
    (hinsert : ∀ item, insert = .ok item → key item = k)
    (h : upsert key k update insert items = .ok result) :
    Keyed key result ∧ ∃ item, key item = k ∧ Written key k update insert items item ∧
      ∀ x, x ∈ result ↔ x = item ∨ x ∈ items ∧ key x ≠ k := by
  induction items generalizing result with
  | nil =>
    obtain ⟨item, hnew, hresult⟩ := bind_eq_ok.mp h
    cases hresult
    refine ⟨List.pairwise_singleton _ _, item, hinsert item hnew, Or.inr ⟨by simp, hnew⟩, ?_⟩
    simp
  | cons first rest ih =>
    obtain ⟨hfirst, hrest⟩ := List.pairwise_cons.mp hkeyed
    unfold upsert at h
    by_cases hkey : key first = k
    · rw [if_pos hkey] at h
      obtain ⟨item, hchanged, hresult⟩ := bind_eq_ok.mp h
      cases hresult
      have hitem := hupdate first item hkey hchanged
      refine ⟨List.pairwise_cons.mpr ⟨fun x hx => ?_, hrest⟩, item, hitem,
        Or.inl ⟨first, List.mem_cons_self, hkey, hchanged⟩, fun x => ?_⟩
      · rw [hitem, ← hkey]
        exact hfirst x hx
      · rw [List.mem_cons, List.mem_cons]
        refine or_congr_right ⟨fun hx => ⟨Or.inr hx, ?_⟩, ?_⟩
        · rw [← hkey]
          exact Ne.symm (hfirst x hx)
        · rintro ⟨rfl | hx, hne⟩
          · exact absurd hkey hne
          · exact hx
    · rw [if_neg hkey] at h
      obtain ⟨changed, hchanged, hresult⟩ := bind_eq_ok.mp h
      cases hresult
      obtain ⟨hkeyed', item, hitem, hwritten, hmem⟩ := ih hrest hchanged
      refine ⟨List.pairwise_cons.mpr ⟨fun x hx => ?_, hkeyed'⟩, item, hitem, ?_, fun x => ?_⟩
      · rcases (hmem x).mp hx with rfl | ⟨hx, -⟩
        · rw [hitem]
          exact hkey
        · exact hfirst x hx
      · rcases hwritten with ⟨old, hold, hrest'⟩ | ⟨hnone, hnew⟩
        · exact Or.inl ⟨old, List.mem_cons_of_mem _ hold, hrest'⟩
        · exact Or.inr ⟨List.forall_mem_cons.mpr ⟨hkey, hnone⟩, hnew⟩
      · rw [List.mem_cons, hmem, List.mem_cons]
        constructor
        · rintro (rfl | rfl | ⟨hx, hne⟩)
          · exact Or.inr ⟨Or.inl rfl, hkey⟩
          · exact Or.inl rfl
          · exact Or.inr ⟨Or.inr hx, hne⟩
        · rintro (rfl | ⟨rfl | hx, hne⟩)
          · exact Or.inr (Or.inl rfl)
          · exact Or.inl rfl
          · exact Or.inr (Or.inr ⟨hx, hne⟩)

/-! ## Indices -/

/-- `items` has one item under each key of `entries`, and no other. -/
structure Indexed {β : Type} (key : α → κ) (items : List α) (key? : β → Option κ)
    (entries : List β) : Prop where
  keyed : Keyed key items
  named : ∀ k, (∃ item ∈ items, key item = k) ↔ ∃ entry ∈ entries, key? entry = some k

variable {β : Type} {key? : β → Option κ} {entries : List β} {entry : β}

theorem indexed_nil : Indexed key [] key? [] where
  keyed := List.Pairwise.nil
  named := by simp

/-- An entry without a key leaves the index alone. -/
theorem Indexed.skip (h : Indexed key items key? entries) (hentry : key? entry = none) :
    Indexed key items key? (entries ++ [entry]) where
  keyed := h.keyed
  named := by
    intro k
    rw [h.named k]
    simp [or_and_right, exists_or, hentry]

/-- A new item under an entry's new key is pushed. -/
theorem Indexed.append (h : Indexed key items key? entries) (hentry : key? entry = some k) {item : α}
    (hitem : key item = k) (hnew : ∀ old ∈ items, key old ≠ k) :
    Indexed key (items ++ [item]) key? (entries ++ [entry]) where
  keyed := h.keyed.append_singleton (hitem ▸ hnew)
  named := by
    intro other
    simp only [List.mem_append, List.mem_singleton, or_and_right, exists_or, exists_eq_left,
      h.named other, hentry, hitem, Option.some.injEq]

/-- **An `upsert` under an entry's key keeps the index.** -/
theorem indexed_upsert [DecidableEq κ] (h : Indexed key items key? entries)
    (hentry : key? entry = some k)
    (hupdate : ∀ old item, key old = k → update old = .ok item → key item = k)
    (hinsert : ∀ item, insert = .ok item → key item = k)
    (hresult : upsert key k update insert items = .ok result) :
    Indexed key result key? (entries ++ [entry]) := by
  obtain ⟨hkeyed, item, hitem, -, hmem⟩ := upsert_ok h.keyed hupdate hinsert hresult
  refine ⟨hkeyed, fun other => ?_⟩
  simp only [List.mem_append, List.mem_singleton, or_and_right, exists_or, exists_eq_left,
    ← h.named other, hentry, Option.some.injEq, hmem, hitem]
  constructor
  · rintro (hother | ⟨x, ⟨hx, -⟩, hother⟩)
    · exact Or.inr hother
    · exact Or.inl ⟨x, hx, hother⟩
  · rintro (⟨x, hx, hother⟩ | hother)
    · by_cases hsame : key x = k
      · exact Or.inl (hsame.symm.trans hother)
      · exact Or.inr ⟨x, ⟨hx, hsame⟩, hother⟩
    · exact Or.inl hother

end Keyed

end Troupe.Lib
