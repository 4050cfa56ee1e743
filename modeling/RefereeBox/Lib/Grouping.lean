import Mathlib.Data.List.Induction
import Mathlib.Data.List.Nodup
import Mathlib.Data.List.Perm.Basic

/-! # Grouping Records by a Key

  The records of a list are collected into groups, one group for each key.
  A group is opened by the first record with its key, which also gives it a
  label; later records with the key only add their item. What the groups
  list is a permutation of the records exactly when records with one key
  agree in their label.
-/

namespace Grouping

variable {α κ γ β : Type}

/-- A group: its key, the label that the first record gave it, its items. -/
structure Group (κ γ β : Type) where
  key : κ
  label : γ
  items : List β
deriving DecidableEq, Repr

/-- What a group lists. -/
def Group.entries (g : Group κ γ β) : List (κ × γ × β) := g.items.map fun b => (g.key, g.label, b)

variable [DecidableEq κ]

/-- Look for the group of the key; add the item to it, or open a new group at
    the end. -/
def add (k : κ) (l : γ) (b : β) : List (Group κ γ β) → List (Group κ γ β)
  | [] => [⟨k, l, [b]⟩]
  | g :: gs => if k = g.key then { g with items := g.items ++ [b] } :: gs else g :: add k l b gs

/-- All records, from left to right. -/
def collect (key : α → κ) (label : α → γ) (item : α → β) (L : List α) : List (Group κ γ β) :=
  L.foldl (fun gs a => add (key a) (label a) (item a) gs) []

theorem collect_map {δ : Type} (key : α → κ) (label : α → γ) (item : α → β) (f : δ → α)
    (L : List δ) : collect key label item (L.map f) =
      collect (fun d => key (f d)) (fun d => label (f d)) (fun d => item (f d)) L :=
  List.foldl_map ..

/-! ### One record -/

theorem add_keys (k : κ) (l : γ) (b : β) (gs : List (Group κ γ β)) :
    (add k l b gs).map Group.key =
      if k ∈ gs.map Group.key then gs.map Group.key else gs.map Group.key ++ [k] := by
  induction gs with
  | nil => rfl
  | cons g gs ih =>
    unfold add
    by_cases hk : k = g.key
    · simp [hk]
    · rw [if_neg hk, List.map_cons, ih]
      by_cases hmem : k ∈ gs.map Group.key <;> simp [hk, hmem]

theorem add_of_notMem {k : κ} {gs : List (Group κ γ β)} (hk : k ∉ gs.map Group.key) (l : γ) (b : β) :
    add k l b gs = gs ++ [⟨k, l, [b]⟩] := by
  induction gs with
  | nil => rfl
  | cons g gs ih =>
    rw [List.map_cons, List.mem_cons, not_or] at hk
    rw [add, if_neg hk.1, ih hk.2]
    rfl

/-- The group of the key, behind groups of other keys, gets the item. -/
theorem add_append_cons {g : Group κ γ β} {gs : List (Group κ γ β)}
    (hg : g.key ∉ gs.map Group.key) (l : γ) (b : β) (gs' : List (Group κ γ β)) :
    add g.key l b (gs ++ g :: gs') = gs ++ { g with items := g.items ++ [b] } :: gs' := by
  induction gs with
  | nil => rw [List.nil_append, List.nil_append, add, if_pos rfl]
  | cons g' gs ih =>
    rw [List.map_cons, List.mem_cons, not_or] at hg
    rw [List.cons_append, add, if_neg hg.1, ih hg.2]
    rfl

/-- The first group of a key. -/
theorem exists_group_of_mem {k : κ} {gs : List (Group κ γ β)} (hk : k ∈ gs.map Group.key) :
    ∃ before g after, gs = before ++ g :: after ∧ g.key = k ∧ k ∉ before.map Group.key := by
  induction gs with
  | nil => exact absurd hk List.not_mem_nil
  | cons g gs ih =>
    by_cases hg : g.key = k
    · exact ⟨[], g, gs, rfl, hg, List.not_mem_nil⟩
    · have hrest := (List.mem_cons.mp hk).resolve_left (Ne.symm hg)
      obtain ⟨before, g', after, rfl, hg', hbefore⟩ := ih hrest
      refine ⟨g :: before, g', after, rfl, hg', ?_⟩
      rw [List.map_cons, List.mem_cons, not_or]
      exact ⟨Ne.symm hg, hbefore⟩

/-- The groups behind `add` have an old label, or the new one. -/
theorem mem_add {k : κ} {l : γ} {b : β} {gs : List (Group κ γ β)} {g : Group κ γ β}
    (hg : g ∈ add k l b gs) :
    (g.key = k ∧ g.label = l) ∨ ∃ g' ∈ gs, g'.key = g.key ∧ g'.label = g.label := by
  induction gs with
  | nil =>
    rw [add, List.mem_singleton] at hg
    exact Or.inl ⟨by rw [hg], by rw [hg]⟩
  | cons g' gs ih =>
    unfold add at hg
    by_cases hk : k = g'.key
    · rw [if_pos hk] at hg
      rcases List.mem_cons.mp hg with rfl | hmem
      · exact Or.inr ⟨g', List.mem_cons_self, rfl, rfl⟩
      · exact Or.inr ⟨g, List.mem_cons_of_mem g' hmem, rfl, rfl⟩
    · rw [if_neg hk] at hg
      rcases List.mem_cons.mp hg with rfl | hmem
      · exact Or.inr ⟨g, List.mem_cons_self, rfl, rfl⟩
      · rcases ih hmem with h | ⟨g'', hg'', h⟩
        · exact Or.inl h
        · exact Or.inr ⟨g'', List.mem_cons_of_mem g' hg'', h⟩

/-- The items behind `add` are old ones, or the new one. -/
theorem mem_items_add {k : κ} {l : γ} {b c : β} {gs : List (Group κ γ β)} {g : Group κ γ β}
    (hg : g ∈ add k l b gs) (hc : c ∈ g.items) : c = b ∨ ∃ g' ∈ gs, c ∈ g'.items := by
  induction gs with
  | nil =>
    rw [add, List.mem_singleton] at hg
    rw [hg] at hc
    exact Or.inl (List.mem_singleton.mp hc)
  | cons g' gs ih =>
    unfold add at hg
    by_cases hk : k = g'.key
    · -- the group of the key gets the item
      rw [if_pos hk] at hg
      rcases List.mem_cons.mp hg with rfl | hmem
      · rcases List.mem_append.mp hc with hc | hc
        · exact Or.inr ⟨g', List.mem_cons_self, hc⟩
        · exact Or.inl (List.mem_singleton.mp hc)
      · exact Or.inr ⟨g, List.mem_cons_of_mem g' hmem, hc⟩
    · rw [if_neg hk] at hg
      rcases List.mem_cons.mp hg with rfl | hmem
      · exact Or.inr ⟨g, List.mem_cons_self, hc⟩
      · rcases ih hmem with h | ⟨g'', hg'', h⟩
        · exact Or.inl h
        · exact Or.inr ⟨g'', List.mem_cons_of_mem g' hg'', h⟩

/-- The new item is listed under the label of its group. -/
theorem entries_add {k : κ} {l : γ} {b : β} {gs : List (Group κ γ β)}
    (hlabel : ∀ g ∈ gs, g.key = k → g.label = l) :
    ((add k l b gs).flatMap Group.entries).Perm ((k, l, b) :: gs.flatMap Group.entries) := by
  induction gs with
  | nil => exact List.Perm.refl _
  | cons g gs ih =>
    unfold add
    by_cases hk : k = g.key
    · have hl := hlabel g List.mem_cons_self hk.symm
      rw [if_pos hk, List.flatMap_cons, List.flatMap_cons]
      have hentries : Group.entries { g with items := g.items ++ [b] } = g.entries ++ [(k, l, b)] := by
        simp [Group.entries, hk, hl]
      rw [hentries, List.append_assoc]
      exact List.perm_middle
    · rw [if_neg hk, List.flatMap_cons, List.flatMap_cons]
      have hrest := ih fun g' hg' => hlabel g' (List.mem_cons_of_mem g hg')
      exact (hrest.append_left g.entries).trans List.perm_middle

/-- What the groups list gains the item. -/
theorem items_add (k : κ) (l : γ) (b : β) (gs : List (Group κ γ β)) :
    ((add k l b gs).flatMap Group.items).Perm (gs.flatMap Group.items ++ [b]) := by
  by_cases hk : k ∈ gs.map Group.key
  · obtain ⟨before, g, after, rfl, rfl, hbefore⟩ := exists_group_of_mem hk
    rw [add_append_cons hbefore]
    simp only [List.flatMap_append, List.flatMap_cons, List.append_assoc]
    exact ((List.perm_append_comm).append_left g.items).append_left _
  · rw [add_of_notMem hk, List.flatMap_append]
    simp

/-! ### All records -/

section collect
variable (key : α → κ) (label : α → γ) (item : α → β)

theorem collect_concat (L : List α) (a : α) :
    collect key label item (L ++ [a]) =
      add (key a) (label a) (item a) (collect key label item L) := by
  simp [collect]

/-- No two groups have the same key. -/
theorem keys_nodup (L : List α) : ((collect key label item L).map Group.key).Nodup := by
  induction L using List.reverseRecOn with
  | nil => exact List.nodup_nil
  | append_singleton L a ih =>
    rw [collect_concat, add_keys]
    by_cases hmem : key a ∈ (collect key label item L).map Group.key
    · rwa [if_pos hmem]
    · rw [if_neg hmem, List.nodup_append_comm]
      exact List.nodup_cons.mpr ⟨hmem, ih⟩

/-- Key and label of a group are those of a record. -/
theorem exists_of_mem_collect {L : List α} {g : Group κ γ β} (hg : g ∈ collect key label item L) :
    ∃ a ∈ L, key a = g.key ∧ label a = g.label := by
  induction L using List.reverseRecOn generalizing g with
  | nil => exact absurd hg List.not_mem_nil
  | append_singleton L a ih =>
    rw [collect_concat] at hg
    rcases mem_add hg with ⟨hk, hl⟩ | ⟨g', hg', hk, hl⟩
    · exact ⟨a, by simp, hk.symm, hl.symm⟩
    · obtain ⟨c, hc, hck, hcl⟩ := ih hg'
      exact ⟨c, List.mem_append_left [a] hc, hck.trans hk, hcl.trans hl⟩

/-- Every item of a group is the item of a record. -/
theorem exists_item_of_mem_collect {L : List α} {g : Group κ γ β}
    (hg : g ∈ collect key label item L) {b : β} (hb : b ∈ g.items) : ∃ a ∈ L, item a = b := by
  induction L using List.reverseRecOn generalizing g with
  | nil => exact absurd hg List.not_mem_nil
  | append_singleton L a ih =>
    rw [collect_concat] at hg
    rcases mem_items_add hg hb with rfl | ⟨g', hg', hb'⟩
    · exact ⟨a, by simp, rfl⟩
    · obtain ⟨c, hc, h⟩ := ih hg' hb'
      exact ⟨c, List.mem_append_left [a] hc, h⟩

/-- The groups list the records, if records with one key have one label. -/
theorem entries_collect {L : List α}
    (hlabel : ∀ a ∈ L, ∀ b ∈ L, key a = key b → label a = label b) :
    ((collect key label item L).flatMap Group.entries).Perm
      (L.map fun a => (key a, label a, item a)) := by
  induction L using List.reverseRecOn with
  | nil => exact List.Perm.refl _
  | append_singleton L a ih =>
    have hold := ih fun b hb c hc =>
      hlabel b (List.mem_append_left [a] hb) c (List.mem_append_left [a] hc)
    have hnew : ∀ g ∈ collect key label item L, g.key = key a → g.label = label a := by
      intro g hg hk
      obtain ⟨c, hc, hck, hcl⟩ := exists_of_mem_collect key label item hg
      rw [← hcl]
      exact hlabel c (List.mem_append_left [a] hc) a (by simp) (hck.trans hk)
    rw [collect_concat, List.map_append]
    refine (entries_add hnew).trans ((hold.cons _).trans ?_)
    exact (List.perm_append_singleton _ _).symm

/-- **The groups list exactly the records** if and only if records with the
    same key have the same label. -/
theorem entries_collect_iff (L : List α) :
    ((collect key label item L).flatMap Group.entries).Perm
        (L.map fun a => (key a, label a, item a)) ↔
      ∀ a ∈ L, ∀ b ∈ L, key a = key b → label a = label b := by
  refine ⟨?_, entries_collect key label item⟩
  intro hperm
  -- a record is listed by a group with its key and its label
  have hgroup : ∀ a ∈ L, ∃ g ∈ collect key label item L, g.key = key a ∧ g.label = label a := by
    intro a ha
    have hmem := hperm.symm.subset (List.mem_map_of_mem (f := fun a => (key a, label a, item a)) ha)
    obtain ⟨g, hg, hentry⟩ := List.mem_flatMap.mp hmem
    obtain ⟨b, -, hb⟩ := List.mem_map.mp hentry
    rw [Prod.mk.injEq, Prod.mk.injEq] at hb
    exact ⟨g, hg, hb.1, hb.2.1⟩
  intro a ha b hb hkey
  obtain ⟨g, hg, hgk, hgl⟩ := hgroup a ha
  obtain ⟨g', hg', hgk', hgl'⟩ := hgroup b hb
  have hsame : g = g' := List.inj_on_of_nodup_map (keys_nodup key label item L) hg hg'
    (by rw [hgk, hgk', hkey])
  rw [← hgl, ← hgl', hsame]

/-- Records that all have one key make one group. -/
theorem collect_of_forall {k : κ} {a : α} {L : List α} (hkey : ∀ b ∈ a :: L, key b = k) :
    collect key label item (a :: L) = [⟨k, label a, (a :: L).map item⟩] := by
  induction L using List.reverseRecOn with
  | nil =>
    rw [← hkey a List.mem_cons_self]
    rfl
  | append_singleton L b ih =>
    have hb : key b = k := hkey b (by simp)
    rw [← List.cons_append, collect_concat, ih fun c hc => hkey c (by
      rcases List.mem_cons.mp hc with rfl | hc
      · exact List.mem_cons_self
      · exact List.mem_cons_of_mem a (List.mem_append_left [b] hc)), hb]
    simp [add]

/-! ### What the groups are -/

/-- The keys stand in the order in which the records bring them. -/
theorem keys_collect (L : List α) :
    (collect key label item L).map Group.key = (L.map key).eraseDups := by
  induction L using List.reverseRecOn with
  | nil => rfl
  | append_singleton L a ih =>
    rw [collect_concat, add_keys, ih, List.map_append, List.eraseDups_append]
    generalize L.map key = ks
    by_cases hkey : key a ∈ ks
    · rw [if_pos (List.mem_eraseDups.mpr hkey)]
      simp [List.removeAll, hkey]
    · rw [if_neg (mt List.mem_eraseDups.mp hkey)]
      simp [List.removeAll, hkey, List.eraseDups_cons]

/-- A group lists the items of the records with its key, in their order. -/
theorem items_of_mem_collect {L : List α} {g : Group κ γ β} (hg : g ∈ collect key label item L) :
    g.items = (L.filter fun a => key a = g.key).map item := by
  induction L using List.reverseRecOn generalizing g with
  | nil => exact absurd hg List.not_mem_nil
  | append_singleton L a ih =>
    -- a group of another key is an old one
    have hold : ∀ g ∈ collect key label item L, g.key ≠ key a →
        g.items = ((L ++ [a]).filter fun a => key a = g.key).map item := by
      intro g hg hne
      rw [List.filter_append, List.filter_singleton, ih hg]
      simp [Ne.symm hne]
    rw [collect_concat] at hg
    by_cases hkey : key a ∈ (collect key label item L).map Group.key
    · have hnodup := keys_nodup key label item L
      obtain ⟨before, g', after, heq, hg', hbefore⟩ := exists_group_of_mem hkey
      rw [heq, List.map_append, List.map_cons, List.nodup_append] at hnodup
      have hafter : key a ∉ after.map Group.key := hg' ▸ (List.nodup_cons.mp hnodup.2.1).1
      rw [heq, ← hg', add_append_cons (hg' ▸ hbefore)] at hg
      rcases List.mem_append.mp hg with hmem | hmem
      · refine hold g (by simp [heq, hmem]) fun h => hbefore ?_
        exact h ▸ List.mem_map_of_mem hmem
      · rcases List.mem_cons.mp hmem with rfl | hmem
        · -- the group that gets the item
          simp only [List.filter_append, List.map_append]
          rw [ih (g := g') (by simp [heq])]
          simp [hg']
        · refine hold g (by simp [heq, hmem]) fun h => hafter ?_
          exact h ▸ List.mem_map_of_mem hmem
    · rw [add_of_notMem hkey] at hg
      rcases List.mem_append.mp hg with hmem | hmem
      · refine hold g hmem fun h => hkey ?_
        exact h ▸ List.mem_map_of_mem hmem
      · -- the first record with its key
        have hnone : (L.filter fun b => key b = key a) = [] := by
          rw [List.filter_eq_nil_iff]
          intro b hb hkeys
          refine hkey ?_
          rw [keys_collect, List.mem_eraseDups, ← of_decide_eq_true hkeys]
          exact List.mem_map_of_mem hb
        rw [List.mem_singleton.mp hmem]
        simp [hnone]

/-- The groups together list all items. -/
theorem items_collect (L : List α) :
    ((collect key label item L).flatMap Group.items).Perm (L.map item) := by
  induction L using List.reverseRecOn with
  | nil => exact List.Perm.refl _
  | append_singleton L a ih =>
    rw [collect_concat, List.map_append]
    exact (items_add _ _ _ _).trans (ih.append_right _)

end collect

/-- The groups of a list of records: one for each key, in the order in which the
    keys first appear, with the items of its records in their order; and all
    items once. -/
structure IsGrouping (key : α → κ) (item : α → β) (L : List α) (gs : List (Group κ γ β)) : Prop where
  keys : gs.map Group.key = (L.map key).eraseDups
  nodup : (gs.map Group.key).Nodup
  items : ∀ g ∈ gs, g.items = (L.filter fun a => key a = g.key).map item
  perm : (gs.flatMap Group.items).Perm (L.map item)

theorem isGrouping_collect (key : α → κ) (label : α → γ) (item : α → β) (L : List α) :
    IsGrouping key item L (collect key label item L) where
  keys := keys_collect key label item L
  nodup := keys_nodup key label item L
  items _ hg := items_of_mem_collect key label item hg
  perm := items_collect key label item L

end Grouping
