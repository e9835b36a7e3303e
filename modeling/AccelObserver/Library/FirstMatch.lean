import Mathlib.Data.List.Forall2

/-!
# The first item that answers

`List.findSome?` takes the first item of a list that has an answer.  In a
variant of the list an item may answer as it always does, or with a value of
its own.  The first answer of a variant is then the first of the list, or the
own value of an item that is not behind it; and each of these can be made the
first.
-/

namespace AccelObserver.Library.FirstMatch

variable {α β γ : Type}

/-- The items up to the first one with an answer, and this one. -/
def upTo (answer : α → Option γ) : List α → List α
  | [] => []
  | item :: items =>
      if (answer item).isSome then [item] else item :: upTo answer items

/-- The answer of an item in a variant. -/
def Varies
    (answer own : α → Option γ) (varied : β → Option γ)
    (item : α) (other : β) : Prop :=
  varied other = answer item ∨
    ∃ value, own item = some value ∧ varied other = some value

/-- An item without a value of its own answers as it always does. -/
theorem Varies.of_none
    {answer own : α → Option γ} {varied : β → Option γ} {item : α} {other : β}
    (varies : Varies answer own varied item other) (none : own item = none) :
    varied other = answer item := by
  rcases varies with same | ⟨value, owned, -⟩
  · exact same
  · rw [none] at owned
    cases owned

/-- An item of a variant comes from an item of the list. -/
theorem exists_of_mem_right
    {related : α → β → Prop} {items : List α} {others : List β}
    (pairs : List.Forall₂ related items others) {other : β}
    (member : other ∈ others) : ∃ item ∈ items, related item other := by
  induction pairs with
  | nil => cases member
  | @cons item first items others here _ induction =>
      rcases List.mem_cons.mp member with rfl | later
      · exact ⟨item, List.mem_cons_self .., here⟩
      · rcases induction later with ⟨found, inItems, relates⟩
        exact ⟨found, List.mem_cons_of_mem _ inItems, relates⟩

/-- An item of the list is found in a variant. -/
theorem exists_of_mem_left
    {related : α → β → Prop} {items : List α} {others : List β}
    (pairs : List.Forall₂ related items others) {item : α}
    (member : item ∈ items) : ∃ other ∈ others, related item other :=
  exists_of_mem_right pairs.flip member

/-- The first answer of a variant. -/
theorem findSome?_of_varies
    {answer own : α → Option γ} {varied : β → Option γ}
    {items : List α} {others : List β}
    (varies : List.Forall₂ (Varies answer own varied) items others) :
    others.findSome? varied = items.findSome? answer ∨
      ∃ item ∈ upTo answer items, ∃ value,
        own item = some value ∧ others.findSome? varied = some value := by
  induction varies with
  | nil => exact .inl rfl
  | @cons item other items others here _ induction =>
      rcases here with same | ⟨value, owned, answered⟩
      · rw [List.findSome?_cons, List.findSome?_cons, same, upTo]
        cases answer item with
        | some value => exact .inl rfl
        | none =>
            rcases induction with
              sameLater | ⟨found, member, value, owned, first⟩
            · exact .inl sameLater
            · exact .inr ⟨found, List.mem_cons_of_mem _ member, value, owned,
                first⟩
      · right
        refine ⟨item, ?_, value, owned, ?_⟩
        · rw [upTo]
          split_ifs
          · exact List.mem_singleton_self item
          · exact List.mem_cons_self ..
        · rw [List.findSome?_cons, answered]

/-- Nothing in front of such an item has an answer. -/
theorem exists_of_mem_upTo
    {answer : α → Option γ} {items : List α} {item : α}
    (member : item ∈ upTo answer items) :
    ∃ before after, items = before ++ item :: after ∧
      ∀ other ∈ before, answer other = none := by
  induction items with
  | nil => cases member
  | cons first items induction =>
      rw [upTo] at member
      split_ifs at member with answered
      · rw [List.mem_singleton] at member
        exact ⟨[], items, by rw [member]; rfl, by simp⟩
      · rcases List.mem_cons.mp member with rfl | later
        · exact ⟨[], items, rfl, by simp⟩
        · rcases induction later with ⟨before, after, rfl, silent⟩
          refine ⟨first :: before, after, rfl, ?_⟩
          refine List.forall_mem_cons.mpr ⟨?_, silent⟩
          simpa using answered

/-- The items of a list without an answer are all up to its first. -/
theorem upTo_of_findSome?_none
    {answer : α → Option γ} {items : List α}
    (silent : items.findSome? answer = none) : upTo answer items = items := by
  induction items with
  | nil => rfl
  | cons item items induction =>
      rw [List.findSome?_cons] at silent
      cases here : answer item with
      | some value =>
          rw [here] at silent
          cases silent
      | none =>
          rw [here] at silent
          rw [upTo, here, if_neg (by simp), induction silent]

theorem mem_of_mem_upTo
    {answer : α → Option γ} {items : List α} {item : α}
    (member : item ∈ upTo answer items) : item ∈ items := by
  rcases exists_of_mem_upTo member with ⟨before, after, rfl, _⟩
  simp

/-- An item behind silent ones is the first to answer. -/
theorem findSome?_of_silent
    {answer : α → Option γ} {before after : List α} {item : α}
    (silent : ∀ other ∈ before, answer other = none) {value : γ}
    (answered : answer item = some value) :
    (before ++ item :: after).findSome? answer = some value := by
  rw [List.findSome?_append, List.findSome?_eq_none_iff.mpr silent,
    List.findSome?_cons, answered]
  rfl

/-! ## Two searches -/

/--
Two searches of one list.  At the first item at which one of them has an
answer, this is like the answer that the other one has there or further on.
Where neither has one, it depends on what comes `otherwise`.
-/
def Alike (like : γ → γ → Prop) (first second : α → Option γ)
    (firstRest secondRest : γ) (otherwise : Prop) : List α → Prop
  | [] => otherwise
  | item :: items =>
      match first item, second item with
      | none, none =>
          Alike like first second firstRest secondRest otherwise items
      | some value, some other => like value other
      | some value, none =>
          like value ((items.findSome? second).getD secondRest)
      | none, some other =>
          like ((items.findSome? first).getD firstRest) other

/-- It comes down to the first answers of both. -/
theorem alike_iff
    {like : γ → γ → Prop} {first second : α → Option γ}
    {firstRest secondRest : γ} {otherwise : Prop}
    (rest : otherwise ↔ like firstRest secondRest) (items : List α) :
    Alike like first second firstRest secondRest otherwise items ↔
      like ((items.findSome? first).getD firstRest)
        ((items.findSome? second).getD secondRest) := by
  induction items with
  | nil => exact rest
  | cons item items induction =>
      rw [List.findSome?_cons, List.findSome?_cons, Alike]
      cases first item <;> cases second item
      · exact induction
      · exact Iff.rfl
      · exact Iff.rfl
      · exact Iff.rfl

/-- The answers on one side of a list of pairs. -/
theorem findSome?_zip_fst
    {firsts : List α} {seconds : List β}
    (same : firsts.length = seconds.length) (answer : α → Option γ) :
    (firsts.zip seconds).findSome? (fun pair => answer pair.1) =
      firsts.findSome? answer := by
  have sides : (firsts.zip seconds).map Prod.fst = firsts :=
    List.map_fst_zip (Nat.le_of_eq same)
  conv_rhs => rw [← sides, List.findSome?_map]
  rfl

theorem findSome?_zip_snd
    {firsts : List α} {seconds : List β}
    (same : firsts.length = seconds.length) (answer : β → Option γ) :
    (firsts.zip seconds).findSome? (fun pair => answer pair.2) =
      seconds.findSome? answer := by
  have sides : (firsts.zip seconds).map Prod.snd = seconds :=
    List.map_snd_zip (Nat.le_of_eq same.symm)
  conv_rhs => rw [← sides, List.findSome?_map]
  rfl

/-- Lists whose items have the same answers have the same first answer. -/
theorem findSome?_of_same
    {answer : α → Option γ} {answered : β → Option γ}
    {items : List α} {others : List β}
    (same :
      List.Forall₂ (fun item other => answer item = answered other) items
        others) :
    items.findSome? answer = others.findSome? answered := by
  induction same with
  | nil => rfl
  | cons here _ induction =>
      rw [List.findSome?_cons, List.findSome?_cons, here, induction]

theorem any_of_same
    {holds : α → Bool} {alsoHolds : β → Bool}
    {items : List α} {others : List β}
    (same :
      List.Forall₂ (fun item other => holds item = alsoHolds other) items
        others) :
    items.any holds = others.any alsoHolds := by
  induction same with
  | nil => rfl
  | cons here _ induction => rw [List.any_cons, List.any_cons, here, induction]

end AccelObserver.Library.FirstMatch
