import Mathlib.Data.List.SplitBy
import Mathlib.Tactic.Common

/-! # Groups of a sorted list

A list sorted by a key, split where the key changes. **`group_eq_filter`**: each group is
everything with its key. -/

namespace Troupe.Lib

variable {α κ : Type} {key : α → κ} {same : α → α → Bool} {R : κ → κ → Prop} {items group : List α}

theorem key_eq_head {first : α} (hsame : ∀ a b, same a b = true ↔ key a = key b)
    (hchain : (first :: group).IsChain fun a b => same a b = true) :
    ∀ item ∈ group, key item = key first := by
  induction group generalizing first with
  | nil =>
    intro item hitem
    cases hitem
  | cons second rest ih =>
    obtain ⟨hfirst, hrest⟩ := List.isChain_cons_cons.mp hchain
    have hsecond := (hsame first second).mp hfirst
    intro item hitem
    rcases List.mem_cons.mp hitem with rfl | hitem
    · exact hsecond.symm
    · exact (ih hrest item hitem).trans hsecond.symm

/-- The key is one within a group. -/
theorem key_eq_of_chain (hsame : ∀ a b, same a b = true ↔ key a = key b)
    (hchain : group.IsChain fun a b => same a b = true) {a b : α} (ha : a ∈ group)
    (hb : b ∈ group) : key a = key b := by
  cases group with
  | nil => cases ha
  | cons first rest =>
    have hall : ∀ item ∈ first :: rest, key item = key first :=
      List.forall_mem_cons.mpr ⟨rfl, key_eq_head hsame hchain⟩
    exact (hall a ha).trans (hall b hb).symm

/-- Two groups of a sorted list have different keys. -/
theorem groups_apart {groups : List (List α)} (hsame : ∀ a b, same a b = true ↔ key a = key b)
    (hantisymm : ∀ a b, R a b → R b a → a = b)
    (hone : ∀ group ∈ groups, group.IsChain fun a b => same a b = true)
    (hbounds : groups.IsChain fun a b => ∃ ha hb, same (a.getLast ha) (b.head hb) = false)
    (hsorted : groups.flatten.Pairwise fun a b => R (key a) (key b)) :
    groups.Pairwise fun group other => ∀ a ∈ group, ∀ b ∈ other, key a ≠ key b := by
  induction groups with
  | nil => exact List.Pairwise.nil
  | cons group rest ih =>
    obtain ⟨hgroup, hrest⟩ := List.forall_mem_cons.mp hone
    rw [List.flatten_cons] at hsorted
    obtain ⟨-, hsorted', hcross⟩ := List.pairwise_append.mp hsorted
    refine List.pairwise_cons.mpr ⟨?_, ih hrest hbounds.of_cons hsorted'⟩
    intro other hother a ha b hb hkey
    cases rest with
    | nil => cases hother
    | cons next others =>
      obtain ⟨⟨hne, hne', hbound⟩, -⟩ := List.isChain_cons_cons.mp hbounds
      have hchange : key (group.getLast hne) ≠ key (next.head hne') := fun heq =>
        absurd ((hsame _ _).mpr heq) (Bool.eq_false_iff.mp hbound)
      have hlast := key_eq_of_chain hsame hgroup ha (List.getLast_mem hne)
      obtain ⟨hnext, -⟩ := List.forall_mem_cons.mp hrest
      refine hchange (hlast.symm.trans ?_)
      -- the key lies between that of the next group and its own
      rcases List.mem_cons.mp hother with rfl | hother
      · exact hkey.trans (key_eq_of_chain hsame hnext hb (List.head_mem hne'))
      · have hforth := hcross a ha (next.head hne')
          (List.mem_flatten_of_mem List.mem_cons_self (List.head_mem hne'))
        rw [List.flatten_cons] at hsorted'
        have hback := (List.pairwise_append.mp hsorted').2.2 (next.head hne')
          (List.head_mem hne') b (List.mem_flatten_of_mem hother hb)
        rw [← hkey] at hback
        exact hantisymm _ _ hforth hback

/-- **A group is everything with its key.** -/
theorem group_eq_filter [DecidableEq κ] (hsame : ∀ a b, same a b = true ↔ key a = key b)
    (hantisymm : ∀ a b, R a b → R b a → a = b)
    (hsorted : items.Pairwise fun a b => R (key a) (key b)) (hgroup : group ∈ items.splitBy same)
    {a : α} (ha : a ∈ group) : items.filter (fun item => key item = key a) = group := by
  have hone : ∀ group ∈ items.splitBy same, group.IsChain fun a b => same a b = true :=
    fun _ hmem => List.isChain_of_mem_splitBy hmem
  have hsorted' := hsorted
  rw [← List.flatten_splitBy same items] at hsorted'
  have hapart := groups_apart hsame hantisymm hone
    (List.isChain_getLast_head_splitBy same items) hsorted'
  have hflatten := List.flatten_splitBy same items
  obtain ⟨before, after, hsplit⟩ := List.append_of_mem hgroup
  rw [hsplit] at hflatten hapart
  obtain ⟨-, hafter, hbefore⟩ := List.pairwise_append.mp hapart
  have hfirst : before.flatten.filter (fun item => key item = key a) = [] := by
    refine List.filter_eq_nil_iff.mpr fun item hitem hkey => ?_
    obtain ⟨other, hother, hitem⟩ := List.mem_flatten.mp hitem
    exact hbefore other hother group List.mem_cons_self item hitem a ha (of_decide_eq_true hkey)
  have hlast : after.flatten.filter (fun item => key item = key a) = [] := by
    refine List.filter_eq_nil_iff.mpr fun item hitem hkey => ?_
    obtain ⟨other, hother, hitem⟩ := List.mem_flatten.mp hitem
    exact List.rel_of_pairwise_cons hafter hother a ha item hitem (of_decide_eq_true hkey).symm
  have hall : group.filter (fun item => key item = key a) = group :=
    List.filter_eq_self.mpr fun item hitem =>
      decide_eq_true (key_eq_of_chain hsame (hone group hgroup) hitem ha)
  rw [← hflatten, List.flatten_append, List.flatten_cons, List.filter_append, List.filter_append,
    hfirst, hlast, hall, List.nil_append, List.append_nil]

end Troupe.Lib
