import SignalBridge.Expression.Tree
import SignalBridge.Outcome

/-! Placing tokens. The operations of a tree are those of its tokens, and what is placed between parentheses
    becomes the tree that it makes by itself, whatever lies below it on the stack. -/

namespace SignalBridge.Expression.Tree

/-- All operations of a tree are of a kind. -/
inductive All (P : Operation → Prop) : Tree → Prop
  | node {o : Operation} {reversed : List Tree} (ho : P o) (hreversed : ∀ t ∈ reversed, All P t) :
    All P (.node o reversed)

/-- The tree `s` is the tree itself or lies somewhere below it. -/
inductive Within (s : Tree) : Tree → Prop
  | self : Within s s
  | child {o : Operation} {reversed : List Tree} {t : Tree} (ht : t ∈ reversed) (h : Within s t) :
    Within s (.node o reversed)

variable {P : Operation → Prop} {n t t' root root' last : Tree} {others stack stack' : List Tree} {o : Operation}
  {asRoot : Bool} {precedence : Nat}

/-! ### What a step can do -/

theorem rotate_eq_ok (h : rotate o last others n = .ok t) : t = node o (n.append last :: others) := by
  unfold rotate at h
  split at h
  · cases h
  split at h
  · cases h
  split at h
  · cases h
  · exact (Except.ok.inj h).symm

/-- The node becomes the last child, or goes into the last child, or takes its place and is put above it. -/
theorem insert_eq_ok {children : List Tree} (h : insert n asRoot (node o children) = .ok t) :
    t = node o (n :: children) ∨ ∃ last others, children = last :: others ∧
      ((∃ last', insert n false last = .ok last' ∧ t = node o (last' :: others)) ∨
        t = node o (n.append last :: others)) := by
  unfold insert at h
  dsimp only at h
  split at h
  case isFalse => cases h
  split at h
  · cases h
  split at h
  case isFalse => exact .inl (Except.ok.inj h).symm
  cases children with
  | nil => exact .inl (Except.ok.inj h).symm
  | cons last others =>
    refine .inr ⟨last, others, rfl, ?_⟩
    dsimp only at h
    split at h
    · obtain ⟨last', hlast, rfl⟩ := map_eq_ok.mp h
      exact .inl ⟨last', hlast, rfl⟩
    · exact .inr (rotate_eq_ok h)

/-! ### Operations come from tokens -/

theorem All.operation (h : t.All P) : P t.operation := by
  cases h with
  | node ho _ => exact ho

theorem All.child (h : t.All P) (hlast : last ∈ t.reversed) : last.All P := by
  cases h with
  | node _ hreversed => exact hreversed last hlast

theorem Within.trans {s u : Tree} (h : s.Within t) (ht : t.Within u) : s.Within u := by
  induction ht with
  | self => exact h
  | child hmem _ ih => exact .child hmem ih

theorem All.within {s : Tree} (h : t.All P) (hs : s.Within t) : P s.operation := by
  induction hs with
  | self => exact h.operation
  | child ht _ ih => exact ih (h.child ht)

theorem all_of_within : ∀ {t : Tree}, (∀ s : Tree, s.Within t → P s.operation) → t.All P
  | .node o _, h => .node (h (.node o _) .self) fun t ht => all_of_within fun s hs => h s (.child ht hs)
termination_by t => sizeOf t
decreasing_by
  have hlt := List.sizeOf_lt_of_mem ht
  simp
  omega

theorem All.leaf (ho : P o) : (leaf o).All P :=
  .node ho nofun

theorem All.append (h : t.All P) (hlast : last.All P) : (t.append last).All P :=
  .node h.operation (List.forall_mem_cons.mpr ⟨hlast, fun _ => h.child⟩)

theorem All.insert (hn : n.All P) (ht : t.All P) (h : Tree.insert n asRoot t = .ok t') : t'.All P := by
  induction ht generalizing t' asRoot with
  | node ho hreversed ih =>
    rcases insert_eq_ok h with rfl | ⟨last, others, rfl, hinside⟩
    · exact .node ho (List.forall_mem_cons.mpr ⟨hn, hreversed⟩)
    · obtain ⟨hlast, hothers⟩ := List.forall_mem_cons.mp hreversed
      rcases hinside with ⟨last', hinsert, rfl⟩ | rfl
      · exact .node ho (List.forall_mem_cons.mpr ⟨ih last List.mem_cons_self hinsert, hothers⟩)
      · exact .node ho (List.forall_mem_cons.mpr ⟨hn.append hlast, hothers⟩)

theorem all_closeSequences (hroot : root.All P) (hstack : ∀ t ∈ stack, t.All P)
    (h : closeSequences root stack = .ok stack') : ∀ t ∈ stack', t.All P := by
  fun_induction closeSequences root stack with
  | case1 | case3 | case5 => cases h
  | case2 | case6 => exact Except.ok.inj h ▸ List.forall_mem_cons.mpr ⟨hroot, hstack⟩
  | case4 _ _ _ _ _ ih =>
    obtain ⟨hlast, hothers⟩ := List.forall_mem_cons.mp hstack
    exact ih (hlast.append hroot) hothers h

theorem all_closeAll (hstack : ∀ t ∈ stack, t.All P) (h : closeAll stack = .ok stack') : ∀ t ∈ stack', t.All P := by
  cases stack with
  | nil => cases h
  | cons root stack =>
    obtain ⟨hroot, hrest⟩ := List.forall_mem_cons.mp hstack
    exact all_closeSequences hroot hrest h

theorem all_closeTo (hroot : root.All P) (hstack : ∀ t ∈ stack, t.All P)
    (h : closeTo precedence root stack = .ok (root', stack')) : root'.All P ∧ ∀ t ∈ stack', t.All P := by
  fun_induction closeTo precedence root stack with
  | case1 => cases h
  | case2 _ _ _ _ ih =>
    obtain ⟨hlast, hothers⟩ := List.forall_mem_cons.mp hstack
    exact ih (hlast.append hroot) hothers h
  | case3 =>
    obtain ⟨rfl, rfl⟩ := Prod.mk.inj (Except.ok.inj h)
    exact ⟨hroot, hstack⟩

theorem all_placeSequence (hgroup : P .group) (hn : n.All P) (hroot : root.All P) (hstack : ∀ t ∈ stack, t.All P)
    (h : placeSequence n root stack = .ok stack') : ∀ t ∈ stack', t.All P := by
  have hopen : (leaf .group).All P := .leaf hgroup
  unfold placeSequence at h
  split at h
  · exact Except.ok.inj h ▸ List.forall_mem_cons.mpr ⟨hroot.append hopen, hstack⟩
  split at h
  · exact Except.ok.inj h ▸ List.forall_mem_cons.mpr
      ⟨(hn.append hroot).append hopen, List.forall_mem_cons.mpr ⟨hopen, hstack⟩⟩
  split at h
  next last others _ hreversed =>
    have hlast : last.All P := hroot.child (by simp [hreversed])
    have hothers : (node root.operation others).All P :=
      .node hroot.operation fun t ht => hroot.child (by simp [hreversed, ht])
    exact Except.ok.inj h ▸ List.forall_mem_cons.mpr
      ⟨(hn.append hlast).append hopen, List.forall_mem_cons.mpr ⟨hothers, hstack⟩⟩
  · obtain ⟨⟨root', rest⟩, hclose, h⟩ := bind_eq_ok.mp h
    obtain ⟨hroot', hrest⟩ := all_closeTo hroot hstack hclose
    exact Except.ok.inj h ▸ List.forall_mem_cons.mpr ⟨hn.append hroot', hrest⟩

theorem all_place (hgroup : P .group) (hn : n.All P) (hstack : ∀ t ∈ stack, t.All P) (h : place n stack = .ok stack') :
    ∀ t ∈ stack', t.All P := by
  cases stack with
  | nil => cases h
  | cons root stack =>
    obtain ⟨hroot, hrest⟩ := List.forall_mem_cons.mp hstack
    unfold place at h
    dsimp only at h
    by_cases hsequence : n.operation.isSequence = true
    · rw [if_pos hsequence] at h
      exact all_placeSequence hgroup hn hroot hrest h
    rw [if_neg hsequence] at h
    by_cases hrootSequence : root.operation.isSequence = true
    · rw [if_pos hrootSequence] at h
      split at h
      next last others hreversed =>
        obtain ⟨last', hlast', h⟩ := bind_eq_ok.mp h
        have hlast : last'.All P := .insert hn (hroot.child (by simp [hreversed])) hlast'
        have hothers : ∀ t ∈ others, t.All P := fun t ht => hroot.child (by simp [hreversed, ht])
        exact Except.ok.inj h ▸ List.forall_mem_cons.mpr
          ⟨.node hroot.operation (List.forall_mem_cons.mpr ⟨hlast, hothers⟩), hrest⟩
      · exact Except.ok.inj h ▸ hstack
    · rw [if_neg hrootSequence] at h
      obtain ⟨root', hroot', h⟩ := bind_eq_ok.mp h
      exact Except.ok.inj h ▸ List.forall_mem_cons.mpr ⟨.insert hn hroot hroot', hrest⟩

theorem all_placeTokens (hgroup : P .group) {previous : Option Token} {ts : List Token}
    (hts : ∀ t ∈ ts, ∀ previous next, P (operationOf previous next t)) (hstack : ∀ t ∈ stack, t.All P)
    (h : placeTokens previous ts stack = .ok stack') : ∀ t ∈ stack', t.All P := by
  fun_induction placeTokens previous ts stack with
  | case1 => exact Except.ok.inj h ▸ hstack
  | case2 previous ts stack ih =>
    exact ih (fun t ht => hts t (List.mem_cons_of_mem _ ht)) (List.forall_mem_cons.mpr ⟨.leaf hgroup, hstack⟩) h
  | case3 => cases h
  | case4 previous ts stack _ ih =>
    obtain ⟨closed, hclosed, h⟩ := bind_eq_ok.mp h
    have hall := all_closeAll hstack hclosed
    cases closed with
    | nil => cases h
    | cons group rest =>
      obtain ⟨hgroupTree, hrest⟩ := List.forall_mem_cons.mp hall
      obtain ⟨placed, hplaced, h⟩ := bind_eq_ok.mp h
      exact ih placed (fun t ht => hts t (List.mem_cons_of_mem _ ht)) (all_place hgroup hgroupTree hrest hplaced) h
  | case5 previous ts stack t _ _ ih =>
    obtain ⟨placed, hplaced, h⟩ := bind_eq_ok.mp h
    have hleaf : (leaf (operationOf previous ts.head? t)).All P := .leaf (hts t List.mem_cons_self _ _)
    exact ih placed (fun t ht => hts t (List.mem_cons_of_mem _ ht)) (all_place hgroup hleaf hstack hplaced) h

/-! ### What lies below on the stack -/

theorem closeSequences_append (h : closeSequences root stack = .ok stack') (below : List Tree) :
    closeSequences root (stack ++ below) = .ok (stack' ++ below) := by
  fun_induction closeSequences root stack with
  | case1 | case3 | case5 => cases h
  | case2 root stack hgroup hfull =>
    obtain rfl := Except.ok.inj h
    unfold closeSequences
    simp [hgroup, hfull]
  | case4 root hgroup last others hsequence ih =>
    unfold closeSequences
    simp [hgroup, hsequence, ih h]
  | case6 root hgroup last others hsequence hfull =>
    obtain rfl := Except.ok.inj h
    unfold closeSequences
    simp [hgroup, hsequence, hfull]

theorem closeAll_append (h : closeAll stack = .ok stack') (below : List Tree) :
    closeAll (stack ++ below) = .ok (stack' ++ below) := by
  cases stack with
  | nil => cases h
  | cons root stack => exact closeSequences_append h below

theorem closeTo_append (h : closeTo precedence root stack = .ok (root', stack')) (below : List Tree) :
    closeTo precedence root (stack ++ below) = .ok (root', stack' ++ below) := by
  fun_induction closeTo precedence root stack with
  | case1 => cases h
  | case2 root last others hlast ih =>
    unfold closeTo
    simp [hlast, ih h]
  | case3 root last others hlast =>
    obtain ⟨rfl, rfl⟩ := Prod.mk.inj (Except.ok.inj h)
    unfold closeTo
    simp [hlast]

theorem placeSequence_append (h : placeSequence n root stack = .ok stack') (below : List Tree) :
    placeSequence n root (stack ++ below) = .ok (stack' ++ below) := by
  unfold placeSequence at h ⊢
  split at h
  case isTrue hsame =>
    obtain rfl := Except.ok.inj h
    rw [if_pos hsame]
    rfl
  case isFalse hsame =>
    rw [if_neg hsame]
    split at h
    case isTrue hgroup =>
      obtain rfl := Except.ok.inj h
      rw [if_pos hgroup]
      rfl
    case isFalse hgroup =>
      rw [if_neg hgroup]
      split at h
      case h_1 =>
        obtain rfl := Except.ok.inj h
        rfl
      case h_2 =>
        obtain ⟨⟨root', rest⟩, hclose, h⟩ := bind_eq_ok.mp h
        rw [closeTo_append hclose below]
        obtain rfl := Except.ok.inj h
        rfl

theorem place_append (h : place n stack = .ok stack') (below : List Tree) :
    place n (stack ++ below) = .ok (stack' ++ below) := by
  cases stack with
  | nil => cases h
  | cons root stack =>
    rw [List.cons_append]
    unfold place at h ⊢
    dsimp only at h ⊢
    by_cases hsequence : n.operation.isSequence = true
    · rw [if_pos hsequence] at h ⊢
      exact placeSequence_append h below
    rw [if_neg hsequence] at h ⊢
    by_cases hroot : root.operation.isSequence = true
    · rw [if_pos hroot] at h ⊢
      split at h
      · obtain ⟨last, hlast, h⟩ := bind_eq_ok.mp h
        obtain rfl := Except.ok.inj h
        exact bind_eq_ok.mpr ⟨last, hlast, rfl⟩
      · obtain rfl := Except.ok.inj h
        rfl
    · rw [if_neg hroot] at h ⊢
      obtain ⟨root', hroot', h⟩ := bind_eq_ok.mp h
      obtain rfl := Except.ok.inj h
      exact bind_eq_ok.mpr ⟨root', hroot', rfl⟩

theorem placeTokens_cons {previous : Option Token} {t : Token} {ts : List Token} (hopening : t ≠ .opening)
    (hclosing : t ≠ .closing) :
    placeTokens previous (t :: ts) stack =
      place (leaf (operationOf previous ts.head? t)) stack >>= placeTokens (some t) ts := by
  rw [placeTokens]
  · exact hopening
  · exact hclosing

/-- A closing parenthesis bears on the token before it as the end does. -/
theorem operationOf_head {previous : Option Token} {ts more : List Token} {t : Token} :
    operationOf previous (ts ++ .closing :: more).head? t = operationOf previous ts.head? t := by
  cases ts with
  | nil => cases t <;> rfl
  | cons => rfl

/-- What tokens before a closing parenthesis make on a stack does not depend on what lies below it. -/
theorem placeTokens_append {previous : Option Token} {ts : List Token}
    (h : placeTokens previous ts stack = .ok stack') (more : List Token) (below : List Tree) :
    placeTokens previous (ts ++ .closing :: more) (stack ++ below) =
      placeTokens none (.closing :: more) (stack' ++ below) := by
  -- The stack of the tokens themselves never runs empty, so each step leaves what lies below untouched.
  fun_induction placeTokens previous ts stack with
  | case1 previous stack =>
    obtain rfl := Except.ok.inj h
    unfold placeTokens
    rfl
  | case2 previous ts stack ih => exact ih h
  | case3 => cases h
  | case4 previous ts stack hlength ih =>
    obtain ⟨closed, hclosed, h⟩ := bind_eq_ok.mp h
    have hlength' : ¬(stack ++ below).length ≤ 1 := by
      rw [List.length_append]
      omega
    rw [List.cons_append, placeTokens, if_neg hlength', closeAll_append hclosed]
    cases closed with
    | nil => cases h
    | cons group rest =>
      obtain ⟨placed, hplaced, h⟩ := bind_eq_ok.mp h
      refine Eq.trans ?_ (ih placed h)
      exact congrArg (· >>= fun s => placeTokens (some .closing) (ts ++ .closing :: more) s) (place_append hplaced below)
  | case5 previous ts stack t hopening hclosing ih =>
    obtain ⟨placed, hplaced, h⟩ := bind_eq_ok.mp h
    rw [List.cons_append, placeTokens_cons hopening hclosing, operationOf_head, place_append hplaced]
    exact ih placed h

/-- An opening parenthesis bears on the token after it as the start does. -/
theorem placeTokens_opening {ts : List Token} :
    placeTokens (some .opening) ts stack = placeTokens none ts stack := by
  cases ts with
  | nil => rfl
  | cons t ts => cases t <;> rfl

/-! ### Parentheses -/

theorem ofTokens_eq_ok {ts : List Token} :
    ofTokens ts = .ok t ↔ ∃ stack, placeTokens none ts [leaf .group] = .ok stack ∧ closeAll stack = .ok [t] := by
  constructor
  · intro h
    obtain ⟨stack, hplaced, h⟩ := bind_eq_ok.mp h
    obtain ⟨closed, hclosed, h⟩ := bind_eq_ok.mp h
    refine ⟨stack, hplaced, ?_⟩
    rcases closed with _ | ⟨root, _ | _⟩
    · cases h
    · rw [hclosed, Except.ok.inj h]
    · cases h
  · rintro ⟨stack, hplaced, hclosed⟩
    exact bind_eq_ok.mpr ⟨stack, hplaced, bind_eq_ok.mpr ⟨_, hclosed, rfl⟩⟩

/-- The operations of a tree are groups and those that its tokens stand for. -/
theorem all_ofTokens (hgroup : P .group) {ts : List Token} (hts : ∀ t ∈ ts, ∀ previous next, P (operationOf previous next t))
    (h : ofTokens ts = .ok t) : t.All P := by
  obtain ⟨stack, hplaced, hclosed⟩ := ofTokens_eq_ok.mp h
  have hstart : ∀ t ∈ [leaf .group], t.All P := List.forall_mem_singleton.mpr (.leaf hgroup)
  exact all_closeAll (all_placeTokens hgroup hts hstart hplaced) hclosed t List.mem_cons_self

theorem operation_of_closeSequences (h : closeSequences root stack = .ok [t]) : t.operation = .group := by
  fun_induction closeSequences root stack with
  | case1 | case3 | case5 => cases h
  | case2 root stack hgroup =>
    obtain rfl := (List.cons.inj (Except.ok.inj h)).1
    exact hgroup
  | case4 _ _ _ _ _ ih => exact ih h
  | case6 => exact absurd (Except.ok.inj h) (by simp)

theorem operation_of_ofTokens {ts : List Token} (h : ofTokens ts = .ok t) : t.operation = .group := by
  obtain ⟨stack, -, hclosed⟩ := ofTokens_eq_ok.mp h
  cases stack with
  | nil => cases hclosed
  | cons root stack => exact operation_of_closeSequences hclosed

/-- Tokens in parentheses place the tree that they make by themselves. -/
theorem placeTokens_parenthesized (previous : Option Token) {ts : List Token} (h : ofTokens ts = .ok t)
    (hplaced : place t stack = .ok stack') (more : List Token) :
    placeTokens previous (.opening :: ts ++ .closing :: more) stack = placeTokens (some .closing) more stack' := by
  obtain ⟨own, hown, hclosed⟩ := ofTokens_eq_ok.mp h
  have hinner := placeTokens_append hown more stack
  have hlength : ¬(own ++ stack).length ≤ 1 := by
    cases own with
    | nil => cases hclosed
    | cons =>
      cases stack with
      | nil => cases hplaced
      | cons => simp
  rw [List.cons_append, placeTokens, placeTokens_opening]
  refine hinner.trans ?_
  rw [placeTokens, if_neg hlength, closeAll_append hclosed]
  exact congrArg (· >>= placeTokens (some .closing) more) hplaced

/-- The quotient of two expressions in parentheses. -/
def quotientTokens (left right : List Token) : List Token :=
  .opening :: left ++ .closing :: .binary (.arithmetic .divide) :: (.opening :: right ++ [.closing])

theorem ofTokens_quotientTokens {left right : List Token} {l r : Tree} (hl : ofTokens left = .ok l)
    (hr : ofTokens right = .ok r) :
    ofTokens (quotientTokens left right) = .ok (node .group [node (.binary (.arithmetic .divide)) [r, l]]) := by
  obtain ⟨ol, ls⟩ := l
  obtain rfl : ol = .group := operation_of_ofTokens hl
  obtain ⟨or, rs⟩ := r
  obtain rfl : or = .group := operation_of_ofTokens hr
  have hleft : place (node .group ls) [leaf .group] = .ok [node .group [node .group ls]] := rfl
  have hright : place (node .group rs) [node .group [node (.binary (.arithmetic .divide)) [node .group ls]]] =
      .ok [node .group [node (.binary (.arithmetic .divide)) [node .group rs, node .group ls]]] := rfl
  refine ofTokens_eq_ok.mpr ⟨[node .group [node (.binary (.arithmetic .divide)) [node .group rs, node .group ls]]], ?_, ?_⟩
  · rw [quotientTokens, placeTokens_parenthesized none hl hleft]
    exact placeTokens_parenthesized (some (.binary (.arithmetic .divide))) hr hright []
  · rw [closeAll, closeSequences]
    rfl

end SignalBridge.Expression.Tree
