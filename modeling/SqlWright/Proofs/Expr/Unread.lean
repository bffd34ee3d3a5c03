import SqlWright.Proofs.Expr.Places

/-!
# Parts of an expression that are not read

An aggregate is made of one operand, which is what it is called on or else its first argument. Its
other arguments are neither compiled nor looked at, so what stands there, even a construct that has
no SQL form, leaves no trace. At every other place an expression is compiled, and the whole is
refused if it is.
-/

namespace SqlWright.Expr

open Outcome

/-! ## Arguments that are not read -/

/-- Whether the part that is left out is an argument that an aggregate does not read. -/
def Frame.isUnread : Frame → Bool
  | .argument method receiver before _ =>
    (Aggregate.ofName? method).isSome && (receiver.isSome || !before.isEmpty)
  | .owner _ | .left _ _ | .right _ _ | .operand _ | .test _ _ | .ifTrue _ _ | .ifFalse _ _
  | .member _ _ _ | .target _ _ => false

theorem Frame.eq_owner {f : Frame} (h : f.isOwner = true) : ∃ name, f = .owner name := by
  cases f with
  | owner name => exact ⟨name, rfl⟩
  | _ => cases h

theorem Frame.isOwner_of_isUnread {f : Frame} (h : f.isUnread = true) : f.isOwner = false := by
  cases f with
  | owner name => cases h
  | _ => rfl

theorem callOperands_aggregate {method : String} {a : Aggregate}
    (ha : Aggregate.ofName? method = some a) (receiver : Option Expr) (args : List Expr) :
    callOperands method receiver args =
      (receiver.or args.head?).toList.map fun e => (e, none) := by
  have hmethod : method ≠ "Contains" := by
    rintro rfl
    cases ha
  unfold callOperands
  rw [if_neg hmethod, ha]

theorem callOperands_unread {method : String} {receiver : Option Expr} {before after : List Expr}
    (h : (Frame.argument method receiver before after).isUnread = true) (e e' : Expr) :
    callOperands method receiver (before ++ e :: after) =
      callOperands method receiver (before ++ e' :: after) := by
  rw [Frame.isUnread, Bool.and_eq_true, Option.isSome_iff_exists] at h
  obtain ⟨⟨a, ha⟩, hfirst⟩ := h
  rw [callOperands_aggregate ha, callOperands_aggregate ha]
  cases receiver with
  | some operand => rfl
  | none =>
    cases before with
    | nil => cases hfirst
    | cons operand before => rfl

variable {s : Scope} {named : Bool}

/-- Whatever stands at a place that is not read, the node is the same to all nodes above it. -/
theorem Interchangeable.of_isUnread {f : Frame} (h : f.isUnread = true) (e e' : Expr) :
    Interchangeable s named (f.fill e) (f.fill e') := by
  cases f with
  | argument method receiver before after =>
    refine ⟨fun hint => ?_, rfl, rfl⟩
    rw [Frame.fill, Frame.fill, render_call, render_call, callOperands_unread h e e']
  | _ => cases h

/-! ## Refusals -/

/-- An expression that does not compile. -/
def Refused (s : Scope) (named : Bool) (e : Expr) : Prop :=
  ∃ fault, e.compile s named = .error fault

theorem refused_iff {e : Expr} : Refused s named e ↔ ∀ text, e.compile s named ≠ .ok text := by
  unfold Refused
  cases e.compile s named <;> simp

theorem memberValue_error_of_hint {mode : EnumMode} {hint : Option EnumColumn} {owner : Expr}
    {name : String} {fault : Error} (hint' : Option EnumColumn)
    (h : memberValue mode hint owner name = .error fault) :
    memberValue mode hint' owner name = .error fault := by
  unfold memberValue at h ⊢
  cases hc : captured? (.member owner name) with
  | none => rwa [hc] at h
  | some outcome =>
    rw [hc] at h
    rcases outcome with e | (v | object)
    · exact h
    · cases h
    · exact h

/-- The enumeration that is handed to an expression has no part in its refusal. -/
theorem render_error_of_hint {hint : Option EnumColumn} {fault : Error} (hint' : Option EnumColumn)
    (e : Expr) (h : render s named hint e = .error fault) :
    render s named hint' e = .error fault := by
  match e with
  | .parameter _ | .fixed _ _ _ | .constant _ => cases h
  | .captured _ => exact h
  | .member owner name =>
    cases owner with
    | parameter t => exact h
    | _ => exact memberValue_error_of_hint hint' h
  | .unary op operand =>
    rw [render, bind_eq_error] at h
    obtain h | ⟨text, -, h⟩ := h
    · rw [render, bind_eq_error]
      left
      by_cases hop : op = .convert
      · rw [if_pos hop] at h ⊢
        exact render_error_of_hint hint' operand h
      · rw [if_neg hop] at h ⊢
        exact h
    · cases h
  | .call method target args =>
    rw [render_call] at h ⊢
    exact h
  | .binary _ _ _ | .conditional _ _ _ | .projection _ =>
    rw [render] at h ⊢
    exact h

theorem refused_iff_render (hint : Option EnumColumn) {e : Expr} :
    Refused s named e ↔ ∃ fault, render s named hint e = .error fault := by
  simp only [Refused, compile, map_eq_error]
  constructor
  · rintro ⟨fault, h⟩
    exact ⟨fault, render_error_of_hint hint e h⟩
  · rintro ⟨fault, h⟩
    exact ⟨fault, render_error_of_hint none e h⟩

theorem refused_binary {op : BinaryOp} (hop : op.keyword? = none) (left right : Expr) :
    Refused s named (.binary op left right) := by
  refine (refused_iff_render none).2 ⟨.unsupported (.binaryOperator op), ?_⟩
  rw [render, hop]

/-! ## Parts that are read -/

theorem keyword?_isSome_of_render {hint : Option EnumColumn} {op : BinaryOp} {left right : Expr}
    {text : String} (h : render s named hint (.binary op left right) = .ok text) :
    op.keyword?.isSome = true := by
  by_contra hop
  rw [Option.not_isSome_iff_eq_none] at hop
  rw [render, hop] at h
  cases h

/-- A membership test that compiles has a collection and one value. -/
theorem operands_of_membership {hint : Option EnumColumn} {receiver : Option Expr}
    {args : List Expr} {text : String}
    (h : render s named hint (.call "Contains" receiver args) = .ok text) :
    ∃ collection value, receiver = some collection ∧ args = [value] ∨
      receiver = none ∧ args = [collection, value] := by
  rw [render_call] at h
  unfold callOperands at h
  rw [if_pos rfl] at h
  split at h
  · exact ⟨_, _, .inl ⟨rfl, rfl⟩⟩
  · exact ⟨_, _, .inr ⟨rfl, rfl⟩⟩
  · cases h

theorem mem_operands_target {hint : Option EnumColumn} {method : String} {e : Expr}
    {args : List Expr} {text : String}
    (h : render s named hint (.call method (some e) args) = .ok text) :
    ∃ taken, (e, taken) ∈ callOperands method (some e) args := by
  by_cases hmethod : method = "Contains"
  · subst hmethod
    obtain ⟨collection, value, ⟨hreceiver, rfl⟩ | ⟨hreceiver, -⟩⟩ := operands_of_membership h
    · exact ⟨takenFrom e value, List.mem_cons_of_mem _ (List.mem_singleton_self _)⟩
    · cases hreceiver
  · refine ⟨none, ?_⟩
    unfold callOperands
    rw [if_neg hmethod]
    cases Aggregate.ofName? method <;> simp

theorem mem_operands_argument {hint : Option EnumColumn} {method : String} {e : Expr}
    {receiver : Option Expr} {before after : List Expr} {text : String}
    (h : render s named hint (.call method receiver (before ++ e :: after)) = .ok text)
    (hread : (Frame.argument method receiver before after).isUnread = false) :
    ∃ taken, (e, taken) ∈ callOperands method receiver (before ++ e :: after) := by
  by_cases hmethod : method = "Contains"
  · subst hmethod
    obtain ⟨collection, value, ⟨rfl, hargs⟩ | ⟨rfl, hargs⟩⟩ := operands_of_membership h
    · have he : e = value := by
        rw [← List.mem_singleton, ← hargs]
        simp
      rw [hargs, he]
      exact ⟨none, List.mem_cons_self⟩
    · have he : e = collection ∨ e = value := by
        rw [← List.mem_pair, ← hargs]
        simp
      rw [hargs]
      rcases he with rfl | rfl
      · exact ⟨takenFrom e value, List.mem_cons_of_mem _ (List.mem_singleton_self _)⟩
      · exact ⟨none, List.mem_cons_self⟩
  · refine ⟨none, ?_⟩
    cases ha : Aggregate.ofName? method with
    | some a =>
      rw [Frame.isUnread, ha, Option.isSome_some, Bool.true_and, Bool.or_eq_false_iff] at hread
      obtain ⟨hreceiver, hbefore⟩ := hread
      rw [callOperands_aggregate ha]
      cases receiver with
      | some operand => cases hreceiver
      | none =>
        cases before with
        | nil => exact List.mem_singleton_self _
        | cons operand before => cases hbefore
    | none =>
      unfold callOperands
      rw [if_neg hmethod, ha]
      simp

/-- A part that is read is an operand of the node, if the node compiles and the part is not the
owner of a member. -/
theorem mem_operands_fill {hint : Option EnumColumn} {f : Frame} {e : Expr} {text : String}
    (h : render s named hint (f.fill e) = .ok text) (hread : f.isUnread = false)
    (howner : f.isOwner = false) : ∃ taken, (e, taken) ∈ (f.fill e).operands hint := by
  cases f with
  | owner name => cases howner
  | left op other =>
    rw [Frame.fill, operands, if_pos (keyword?_isSome_of_render h)]
    exact ⟨_, List.mem_cons_self⟩
  | right op other =>
    rw [Frame.fill, operands, if_pos (keyword?_isSome_of_render h)]
    exact ⟨_, List.mem_cons_of_mem _ (List.mem_singleton_self _)⟩
  | operand op => exact ⟨_, List.mem_singleton_self _⟩
  | test ifTrue ifFalse | ifTrue test ifFalse | ifFalse test ifTrue | member before name after =>
    exact ⟨none, by simp [Frame.fill, operands]⟩
  | target method args => exact mem_operands_target h
  | argument method receiver before after => exact mem_operands_argument h hread

/-- A node is refused with a part that it reads, unless this is the owner of a member. -/
theorem Refused.fill_read {f : Frame} {e : Expr} (h : Refused s named e)
    (hread : f.isUnread = false) (howner : f.isOwner = false) : Refused s named (f.fill e) := by
  rw [refused_iff_render none]
  cases htext : render s named none (f.fill e) with
  | error fault => exact ⟨fault, rfl⟩
  | ok text =>
    obtain ⟨taken, hmem⟩ := mem_operands_fill htext hread howner
    rw [render_eq_assemble, bind_eq_ok] at htext
    obtain ⟨texts, htexts, -⟩ := htext
    obtain ⟨t, -, ht⟩ := exists_mem_of_mapM htexts hmem
    obtain ⟨fault, hfault⟩ := (refused_iff_render taken).1 h
    rw [hfault] at ht
    cases ht

/-! ## Owners of members -/

/-- An expression that no member can be read of: it is no row and no captured record. -/
structure Memberless (e : Expr) : Prop where
  captured? : captured? e = none
  ne_parameter (t : MappedType) : e ≠ .parameter t

theorem Memberless.refused {e : Expr} (h : Memberless e) (name : String) :
    Refused s named (.member e name) := by
  have hcaptured : Expr.captured? (.member e name) = none := by
    rw [Expr.captured?, h.captured?]
    rfl
  obtain ⟨fault, hfault⟩ := memberValue_error s.enumMode none hcaptured
  refine (refused_iff_render none).2 ⟨fault, ?_⟩
  cases e with
  | parameter t => exact (h.ne_parameter t rfl).elim
  | _ => exact hfault

theorem Memberless.of_isOwner {f : Frame} (h : f.isOwner = false) (e : Expr) :
    Memberless (f.fill e) := by
  cases f with
  | owner name => cases h
  | _ => exact ⟨rfl, fun t => by simp [Frame.fill]⟩

theorem Memberless.fill {e : Expr} (h : Memberless e) (f : Frame) : Memberless (f.fill e) := by
  cases howner : f.isOwner with
  | false => exact .of_isOwner howner e
  | true =>
    obtain ⟨name, rfl⟩ := Frame.eq_owner howner
    refine ⟨?_, fun t => by simp [Frame.fill]⟩
    rw [Frame.fill, Expr.captured?, h.captured?]
    rfl

theorem Memberless.within {e : Expr} (h : Memberless e) (place : List Frame) :
    Memberless (e.within place) := by
  induction place with
  | nil => exact h
  | cons f place ih => exact ih.fill f

theorem Memberless.within_unread {place : List Frame} (h : ∃ f ∈ place, f.isUnread = true)
    (e : Expr) : Memberless (e.within place) := by
  induction place with
  | nil => simp at h
  | cons f place ih =>
    rw [List.exists_mem_cons_iff] at h
    rcases h with h | h
    · exact .of_isOwner (Frame.isOwner_of_isUnread h) _
    · exact (ih h).fill f

/-! ## Whole places -/

theorem Refused.fill {f : Frame} {e : Expr} (h : Refused s named e) (hm : Memberless e)
    (hread : f.isUnread = false) : Refused s named (f.fill e) := by
  cases howner : f.isOwner with
  | false => exact h.fill_read hread howner
  | true =>
    obtain ⟨name, rfl⟩ := Frame.eq_owner howner
    exact hm.refused name

theorem Refused.within {e : Expr} (h : Refused s named e) (hm : Memberless e) {place : List Frame}
    (hplace : ∀ f ∈ place, f.isUnread = false) : Refused s named (e.within place) := by
  induction place with
  | nil => exact h
  | cons f place ih =>
    rw [List.forall_mem_cons] at hplace
    exact (ih hplace.2).fill (hm.within place) hplace.1

theorem Refused.within_read {e : Expr} (h : Refused s named e) {place : List Frame}
    (hplace : ∀ f ∈ place, f.isUnread = false ∧ f.isOwner = false) :
    Refused s named (e.within place) := by
  induction place with
  | nil => exact h
  | cons f place ih =>
    rw [List.forall_mem_cons] at hplace
    exact (ih hplace.2).fill_read hplace.1.1 hplace.1.2

/-- Around a place that is not read, two expressions stand for each other, or nothing compiles. -/
theorem interchangeable_or_refused {place : List Frame} (h : ∃ f ∈ place, f.isUnread = true)
    (e e' : Expr) :
    Interchangeable s named (e.within place) (e'.within place) ∨
      Refused s named (e.within place) ∧ Refused s named (e'.within place) := by
  induction place with
  | nil => simp at h
  | cons f place ih =>
    cases hf : f.isUnread with
    | true => exact .inl (.of_isUnread hf _ _)
    | false =>
      have hplace : ∃ f ∈ place, f.isUnread = true := by simpa [hf] using h
      have hm (e : Expr) : Memberless (e.within place) := .within_unread hplace e
      obtain hsame | ⟨hr, hr'⟩ := ih hplace
      · cases howner : f.isOwner with
        | false => exact .inl (hsame.fill howner)
        | true =>
          obtain ⟨name, rfl⟩ := Frame.eq_owner howner
          exact .inr ⟨(hm e).refused name, (hm e').refused name⟩
      · exact .inr ⟨hr.fill (hm e) hf, hr'.fill (hm e') hf⟩

theorem compile_within_unread {place : List Frame} (h : ∃ f ∈ place, f.isUnread = true)
    (e e' : Expr) (text : String) :
    (e.within place).compile s named = .ok text ↔ (e'.within place).compile s named = .ok text := by
  obtain hsame | ⟨hr, hr'⟩ := interchangeable_or_refused h e e'
  · rw [compile, compile, hsame.render none]
  · rw [refused_iff] at hr hr'
    exact iff_of_false (hr text) (hr' text)

/-- **Only what an aggregate does not read escapes compilation.** An operator that has no SQL form
is refused at every place but inside an argument that an aggregate does not read. In such an
argument it makes no difference what stands there: the whole compiles exactly if it does with a null
constant in its place, and to the same text. At all places that are read and no owner of a member,
an expression compiles if the whole does. -/
theorem compile_unsupported_iff (s : Scope) (named : Bool) (place : List Frame) :
    (∀ (op : BinaryOp) (left right : Expr) (text : String), op.keyword? = none →
      ((within (.binary op left right) place).compile s named = .ok text ↔
        (∃ f ∈ place, f.isUnread = true) ∧ (null.within place).compile s named = .ok text)) ∧
    (∀ (e e' : Expr) (text : String), (∃ f ∈ place, f.isUnread = true) →
      ((e.within place).compile s named = .ok text ↔
        (e'.within place).compile s named = .ok text)) ∧
    ∀ (e : Expr) (text : String), (∀ f ∈ place, f.isUnread = false ∧ f.isOwner = false) →
      (e.within place).compile s named = .ok text → ∃ t, e.compile s named = .ok t := by
  refine ⟨fun op left right text hop => ?_, fun e e' text h => compile_within_unread h e e' text,
    fun e text h htext => ?_⟩
  · by_cases hunread : ∃ f ∈ place, f.isUnread = true
    · rw [compile_within_unread hunread _ null]
      exact (and_iff_right hunread).symm
    · have hread : ∀ f ∈ place, f.isUnread = false := by simpa using hunread
      have hm : Memberless (.binary op left right) := ⟨rfl, fun t => by simp⟩
      have hop : Refused s named (.binary op left right) := refused_binary hop left right
      exact iff_of_false (refused_iff.1 (hop.within hm hread) text) fun h => hunread h.1
  · by_contra hnone
    have he : Refused s named e := refused_iff.2 fun t ht => hnone ⟨t, ht⟩
    exact refused_iff.1 (he.within_read h) text htext

/-- A power as the first argument of a sum is refused, and as the second it is dropped. -/
theorem compile_unsupported_iff_sum :
    let staff : MappedType := ⟨"Staff", "Staff", some "dbo", [Column.plain "Id" "Id"]⟩
    let scope : Scope := ⟨(Registry.empty "dbo").add staff true, [staff], .asInt⟩
    let id : Expr := .column staff "Id"
    let power : Expr := .binary .power (.constant (.int 2)) id
    let test (sum : Expr) : Expr := .binary .greaterThan sum (.constant (.int 9))
    (test (.call "Sum" none [id, power])).compile scope false = .ok "(SUM(t0.[Id]) > 9)" ∧
      ∀ text, (test (.call "Sum" none [power, id])).compile scope false ≠ .ok text := by
  intro staff scope id power test
  have hdropped := (compile_unsupported_iff scope false
    [.left .greaterThan (.constant (.int 9)), .argument "Sum" none [id] []]).1 .power
  have hread := (compile_unsupported_iff scope false
    [.left .greaterThan (.constant (.int 9)), .argument "Sum" none [] [id]]).1 .power
  refine ⟨(hdropped _ id _ rfl).2 ⟨by decide, by decide⟩, fun text h => ?_⟩
  obtain ⟨hunread, -⟩ := (hread _ id text rfl).1 h
  exact absurd hunread (by decide)

/-- A sum on a column drops its argument, which is refused on its own. -/
theorem compile_sum_drops_power :
    let staff : MappedType := ⟨"Staff", "Staff", some "dbo", [Column.plain "Id" "Id"]⟩
    let scope : Scope := ⟨(Registry.empty "dbo").add staff true, [staff], .asInt⟩
    let power : Expr := .binary .power (.constant (.int 2)) (.constant (.int 3))
    power.compile scope false = .error (.unsupported (.binaryOperator .power)) ∧
      (Expr.call "Sum" (some (.column staff "Id")) [power]).compile scope false =
        .ok "SUM(t0.[Id])" := by
  decide +kernel

end SqlWright.Expr
