import SqlWright.Proofs.Expr.Unlinked
import SqlWright.Proofs.Text.Reader

/-!
# Conditions are read back

A condition that is built with `AND`, `OR` and `NOT` over simple conditions is found again in its
text. Linked conditions stand in parentheses, negations and membership tests do not, so what needs a
proof is that none of the simple conditions begins like a negation or is taken for a link.
-/

namespace SqlWright

open Text Outcome

/-- The operator of a connective. -/
def Connective.operator : Connective → BinaryOp
  | .and => .and
  | .or => .or

/-- The expression of a formula over expressions. -/
def Formula.toExpr : Formula Expr → Expr
  | .leaf e => e
  | .not f => .unary .not f.toExpr
  | .link op l r => .binary op.operator l.toExpr r.toExpr

namespace Expr

/-! ## Simple conditions -/

/-- A column of a table, or a value. -/
def IsAtom (e : Expr) : Prop :=
  (∃ t name, e = column t name) ∨ e.isValue = true

/-- A simple condition: a comparison or an arithmetic operation, a column, a value, or a membership
test on one of these two. The operands of an operation and the collection may be anything. -/
inductive IsLeaf : Expr → Prop where
  | operation {op : BinaryOp} {l r : Expr} : op ≠ .and → op ≠ .or → IsLeaf (.binary op l r)
  | negative {e : Expr} : IsLeaf (.unary .negate e)
  | atom {e : Expr} : e.IsAtom → IsLeaf e
  | isIn {e collection : Expr} : e.IsAtom → IsLeaf (e.isIn collection)
  | contains {collection e : Expr} : e.IsAtom → IsLeaf (collection.contains e)

variable {s : Scope} {named : Bool} {e : Expr} {t : String}

theorem simple_of_isValue (hint : Option EnumColumn) (e : Expr) (h : e.isValue = true)
    (he : e.isTimeless = true) {t : String} (hr : render s named hint e = .ok t) : Simple t := by
  match e with
  | .constant value =>
    cases hr
    exact Simple.ofLiterals.literalFor hint _ he
  | .fixed owner name value =>
    cases hr
    exact Simple.ofLiterals.literalFor hint _ he
  | .member owner name =>
    have hvalue : memberValue s.enumMode hint owner name = .ok t := by
      cases owner with
      | parameter u => cases h
      | _ => exact hr
    exact memberValue_of_literals Simple.ofLiterals he hvalue
  | .unary .convert operand =>
    rw [render] at hr
    obtain ⟨u, hu, hr⟩ := bind_eq_ok.1 hr
    cases hr
    exact simple_of_isValue hint operand h he hu

theorem IsAtom.simple (h : e.IsAtom) (hs : s.Numbered) (he : e.isTimeless = true)
    {hint : Option EnumColumn} (hr : render s named hint e = .ok t) : Simple t := by
  rcases h with ⟨u, name, rfl⟩ | h
  · exact Scope.column_simple hs hr
  · exact simple_of_isValue hint e h he hr

/-! ## How simple conditions are read -/

theorem read_simple (h : Simple t) : read t = .leaf (trim t) := by
  refine read_leaf h.toUnlinked (fun g hg hvisible => (h.letters g hg hvisible).1) (.inl ?_)
  rintro g hg rfl
  exact (h.letters _ hg rfl).2 rfl

theorem keyword_unlinked {op : BinaryOp} (hand : op ≠ .and) (hor : op ≠ .or) {keyword : String}
    (hk : op.keyword? = some keyword) : Unlinked (" " ++ keyword ++ " ") := by
  cases op <;> cases hk <;>
    first | exact .plain (by decide) (by decide) | exact absurd rfl hand | exact absurd rfl hor

theorem read_binaryText {op : BinaryOp} (hand : op ≠ .and) (hor : op ≠ .or) {keyword l r : String}
    (hk : op.keyword? = some keyword) (hl : Unlinked l) (hr : Unlinked r) :
    read (binaryText op keyword l r) = .leaf (binaryText op keyword l r) := by
  have hread {k : String} (hk : Unlinked (" " ++ k ++ " ")) :
      read (Text.parenthesized (l ++ " " ++ k ++ " " ++ r)) =
        .leaf (Text.parenthesized (l ++ " " ++ k ++ " " ++ r)) := by
    have hopens : opensApart (" " ++ k ++ " ") = true := by
      rw [String.append_assoc, opensApart_append _ (by decide)]
      decide
    have hends : endsApart (" " ++ k ++ " ") = true := by
      rw [endsApart_append _ (by decide)]
      decide
    have hne : " " ++ k ++ " " ≠ "" := by
      intro h
      have := congrArg String.length h
      simp at this
    have hall := unlinked_between hl hk hr hne hopens hends
    simp only [String.append_assoc] at hall ⊢
    exact read_parenthesized hall
  rw [binaryText]
  split
  · split
    · exact hread (.plain (by decide) (by decide))
    · exact hread (.plain (by decide) (by decide))
  · exact hread (keyword_unlinked hand hor hk)

theorem read_membershipText {v items : String} (hv : Simple v) (hi : Closed items) :
    read (membershipText v items) = .leaf (trim (membershipText v items)) := by
  have hunlinked := membershipText_unlinked hv.toUnlinked hi
  rw [membershipText_eq] at hunlinked ⊢
  split
  · rw [trim_parenthesized]
    exact read_parenthesized (.plain (by decide) (by decide))
  · next hne =>
    rw [if_neg hne] at hunlinked
    have hin : Simple " IN " := .plain (by decide) (by decide) (by decide)
    have hsurface : surface (v ++ " IN " ++ Text.parenthesized items) =
        surface v ++ surface " IN " ++ surface (Text.parenthesized items) := by
      rw [surface_append (hv.closed.append hin.closed).nests (.parenthesized hi.nests),
        surface_append hv.closed.nests hin.closed.nests]
    refine read_leaf hunlinked ?_ (.inr ⟨.shown 'I', ?_, rfl, by decide, by decide, by decide⟩)
    · rw [hsurface]
      intro g hg hvisible
      rcases List.mem_append.1 hg with hg | hg
      · rcases List.mem_append.1 hg with hg | hg
        · exact (hv.letters g hg hvisible).1
        · exact (hin.letters g hg hvisible).1
      · rcases eq_of_mem_surface_parenthesized hi.nests hg hvisible with rfl | rfl <;> decide
    · have hmem : Glyph.shown 'I' ∈ surface " IN " := by decide
      rw [hsurface]
      simp [hmem]

/-- A membership test is read as a leaf, whatever the collection is. -/
theorem read_membership {collection value : Expr} (hv : value.IsAtom) (hs : s.Numbered)
    {target : Option Expr} {args : List Expr}
    (he : (Expr.call "Contains" target args).isTimeless = true)
    (ho : callOperands "Contains" target args =
      [(value, none), (collection, takenFrom collection value)])
    (hr : render s named none (.call "Contains" target args) = .ok t) :
    read t = .leaf (trim t) := by
  have htimeless {o : Expr × Option EnumColumn}
      (hmem : o ∈ [(value, none), (collection, takenFrom collection value)]) :
      o.1.isTimeless = true := by
    have hoperand : o ∈ (Expr.call "Contains" target args).operands none := by
      rwa [operands, ho]
    exact allOf_of_mem_operands he hoperand
  rw [render_call, ho] at hr
  obtain ⟨texts, htexts, hr⟩ := bind_eq_ok.1 hr
  rw [mapM_eq_ok] at htexts
  obtain ⟨v, rest, hvalue, hrest, rfl⟩ := List.forall₂_cons_left_iff.1 htexts
  obtain ⟨items, more, hitems, hmore, rfl⟩ := List.forall₂_cons_left_iff.1 hrest
  obtain rfl := List.forall₂_nil_left_iff.1 hmore
  have htext : callText "Contains" [v, items] = .ok (membershipText v items) := rfl
  obtain rfl := Except.ok.inj (htext.symm.trans hr)
  have hsimple : Simple v := hv.simple hs (htimeless List.mem_cons_self) hvalue
  have hclosed := (render_unlinked hs _ collection
    (htimeless (List.mem_cons_of_mem _ List.mem_cons_self)) hitems).closed
  exact read_membershipText hsimple hclosed

/-- A simple condition is read as a leaf. -/
theorem IsLeaf.read (h : e.IsLeaf) (hs : s.Numbered) (he : e.isTimeless = true)
    (hr : render s named none e = .ok t) : Text.read t = .leaf (trim t) := by
  cases h with
  | @operation op l r hand hor =>
    obtain ⟨hl, hr'⟩ : l.isTimeless = true ∧ r.isTimeless = true := by
      simpa [isTimeless, allOf] using he
    rw [render] at hr
    split at hr
    · cases hr
    · next keyword hk =>
      obtain ⟨u, hu, hr⟩ := bind_eq_ok.1 hr
      obtain ⟨v, hv, hr⟩ := bind_eq_ok.1 hr
      cases hr
      rw [read_binaryText hand hor hk (render_unlinked hs _ l hl hu)
        (render_unlinked hs _ r hr' hv), binaryText, trim_parenthesized]
  | @negative operand =>
    have hminus : Unlinked "-" := .plain (by decide) (by decide)
    rw [render] at hr
    obtain ⟨u, hu, hr⟩ := bind_eq_ok.1 hr
    cases hr
    rw [unaryText, trim_parenthesized]
    exact read_parenthesized (hminus.append (render_unlinked hs _ operand he hu)
      (.inl (by decide)))
  | atom h => exact read_simple (h.simple hs he hr)
  | isIn h => exact read_membership h hs he rfl hr
  | contains h => exact read_membership h hs he rfl hr

end Expr

/-! ## Formulas -/

namespace Formula

/-- No right operand of a connective is the null literal, which would make the link a null test. -/
def NoNullTest (s : Scope) (named : Bool) : Formula Expr → Prop
  | .leaf _ => True
  | .not f => f.NoNullTest s named
  | .link _ l r => l.NoNullTest s named ∧ r.NoNullTest s named ∧
      r.toExpr.render s named none ≠ .ok "NULL"

/-- The text of a leaf, as it is compiled by itself. -/
def leafText (s : Scope) (named : Bool) (e : Expr) : String :=
  (e.compile s named).toOption.getD ""

/-- The leaves are simple conditions without times, and each of them has a text. -/
def HasLeaves (s : Scope) (named : Bool) (f : Formula Expr) : Prop :=
  ∀ e ∈ f.leaves, e.IsLeaf ∧ e.isTimeless = true ∧
    ∃ text, e.compile s named = .ok text ∧ text ≠ ""

variable {s : Scope} {named : Bool}

theorem render_not {f : Formula Expr} {t : String} (h : f.toExpr.render s named none = .ok t) :
    f.not.toExpr.render s named none = .ok ("NOT " ++ t) := by
  have hrender := Expr.render_eq_assemble s named none f.not.toExpr
  rw [hrender]
  refine bind_eq_ok.2 ⟨[t], mapM_eq_ok.2 (.cons ?_ .nil), rfl⟩
  exact h

/-- The operands of a connective take no enumeration from each other. -/
theorem render_link {op : Connective} {l r : Formula Expr} {t u : String}
    (hl : l.toExpr.render s named none = .ok t) (hr : r.toExpr.render s named none = .ok u)
    (hu : u ≠ "NULL") :
    (link op l r).toExpr.render s named none =
      .ok (Text.parenthesized (t ++ (" " ++ op.keyword ++ " ") ++ u)) := by
  have hoperands : (link op l r).toExpr.operands none =
      [(l.toExpr, none), (r.toExpr, none)] := by
    cases op <;> rfl
  have htext : Expr.assemble s named none (link op l r).toExpr [t, u] =
      .ok (Expr.binaryText op.operator op.keyword t u) := by
    cases op <;> rfl
  rw [Expr.render_eq_assemble, hoperands]
  refine bind_eq_ok.2 ⟨[t, u], mapM_eq_ok.2 (.cons hl (.cons hr .nil)), ?_⟩
  rw [htext, Expr.binaryText, if_neg hu]
  simp only [String.append_assoc]

/-- A formula compiles to a text that is read as the formula. -/
theorem read_render (hs : s.Numbered) (f : Formula Expr) (hl : f.HasLeaves s named)
    (hn : f.NoNullTest s named) :
    ∃ text, f.toExpr.render s named none = .ok text ∧ Unlinked text ∧ trim text ≠ "" ∧
      read text = f.map (leafText s named) := by
  induction f with
  | leaf e =>
    obtain ⟨hleaf, he, text, hc, hne⟩ := hl e List.mem_cons_self
    obtain ⟨t, hr, rfl⟩ := map_eq_ok.1 hc
    refine ⟨t, hr, Expr.render_unlinked hs none e he hr, hne, ?_⟩
    rw [hleaf.read hs he hr, map, leafText, hc]
    rfl
  | not f ih =>
    obtain ⟨t, hr, hunlinked, hne, hread⟩ := ih hl hn
    refine ⟨"NOT " ++ t, render_not hr, Expr.unaryText_unlinked .not hunlinked, ?_, ?_⟩
    · obtain ⟨front, -, htrim⟩ := trim_negated hne
      rw [htrim]
      intro h
      have hlength := congrArg String.length h
      simp at hlength
    · rw [read_not hunlinked hne, hread, map]
  | link op l r ihl ihr =>
    obtain ⟨hnl, hnr, hnull⟩ := hn
    obtain ⟨t, hrt, ht, -, hreadt⟩ := ihl (fun e he => hl e (List.mem_append_left _ he)) hnl
    obtain ⟨u, hru, hu, -, hreadu⟩ := ihr (fun e he => hl e (List.mem_append_right _ he)) hnr
    have hne : u ≠ "NULL" := fun h => hnull (h ▸ hru)
    refine ⟨_, render_link hrt hru hne, .parenthesized (link_closed ht.closed hu.closed op), ?_, ?_⟩
    · rw [trim_parenthesized]
      exact parenthesized_ne_empty _
    · rw [read_link ht hu op, hreadt, hreadu, map]

/-- **The structure of a condition is read back.** A formula of `AND`, `OR` and `NOT`, nested to any
depth over simple conditions, compiles to a text that a reader of quotes, parentheses and these
words takes apart into the same formula, with the leaves' own texts at its leaves. -/
theorem read_compile (hs : s.Numbered) (f : Formula Expr) (hl : f.HasLeaves s named)
    (hn : f.NoNullTest s named) :
    ∃ text, f.toExpr.compile s named = .ok text ∧ read text = f.map (leafText s named) := by
  obtain ⟨text, hrender, hunlinked, -, hread⟩ := read_render hs f hl hn
  refine ⟨trim text, map_eq_ok.2 ⟨text, hrender, rfl⟩, ?_⟩
  rw [read_congr hunlinked.trim hunlinked (trim_trim text), hread]

/-- A negated link beside a membership test, with a connective in a literal. -/
theorem read_compile_negated :
    let city : MappedType := ⟨"City", "City", none,
      [Column.plain "Id" "Id", Column.plain "Open" "Open"]⟩
    let s : Scope := ⟨(Registry.empty "dbo").add city true, [city], .asInt⟩
    let id : Expr := .column city "Id"
    let same : Expr := .binary .equal id (.constant (.string "x OR (y"))
    let listed : Expr := id.isIn (.constant (.list [.int 1, .int 2]))
    let f : Formula Expr :=
      .link .and (.not (.link .or (.leaf same) (.leaf (.column city "Open")))) (.leaf listed)
    let text := "(NOT ((t0.[Id] = 'x OR (y') OR t0.[Open]) AND t0.[Id] IN (1,2))"
    f.toExpr.compile s false = .ok text ∧
      read text = .link .and
        (.not (.link .or (.leaf "(t0.[Id] = 'x OR (y')") (.leaf "t0.[Open]")))
        (.leaf "t0.[Id] IN (1,2)") := by
  intro city s id same listed f text
  have hs : s.Numbered := .add (.empty "dbo") city true
  have hid : id.IsAtom := .inl ⟨city, "Id", rfl⟩
  have hopen : (Expr.column city "Open").IsAtom := .inl ⟨city, "Open", rfl⟩
  have hleaves : f.HasLeaves s false := by
    intro e he
    have he : e = same ∨ e = .column city "Open" ∨ e = listed := by
      simpa [f, leaves] using he
    rcases he with rfl | rfl | rfl
    · exact ⟨.operation (by decide) (by decide), by decide, "(t0.[Id] = 'x OR (y')",
        by decide +kernel, by decide⟩
    · exact ⟨.atom hopen, by decide, "t0.[Open]", by decide +kernel, by decide⟩
    · exact ⟨.isIn hid, by decide, "t0.[Id] IN (1,2)", by decide +kernel, by decide⟩
  have hnull : f.NoNullTest s false :=
    ⟨⟨trivial, trivial, by decide +kernel⟩, trivial, by decide +kernel⟩
  have hcompile : f.toExpr.compile s false = .ok text := by decide +kernel
  have hmap : f.map (leafText s false) = .link .and
      (.not (.link .or (.leaf "(t0.[Id] = 'x OR (y')") (.leaf "t0.[Open]")))
      (.leaf "t0.[Id] IN (1,2)") := by decide +kernel
  obtain ⟨t, ht, hread⟩ := read_compile hs f hleaves hnull
  cases hcompile.symm.trans ht
  exact ⟨hcompile, hread.trans hmap⟩

end Formula

end SqlWright
