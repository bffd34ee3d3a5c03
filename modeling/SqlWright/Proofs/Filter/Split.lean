import SqlWright.Proofs.Expr.Unlinked
import SqlWright.Proofs.Filter.Requests

/-!
# Conditions keep their structure

The text of some typed conditions, cut at the connectives on its surface, gives back the conditions
and the connectives of the calls that added them. A condition is put in parentheses only if it does
not start with one. That is enough although its first parenthesis need not be closed at its end,
because no compiled expression shows a connective at all.
-/

namespace SqlWright

open Text Outcome

namespace Conditions

/-! ## Chains of calls -/

/-- A call that adds a typed condition, with the settings and the registry that it is made with. -/
structure Call where
  settings : Settings
  registry : Registry
  type : MappedType
  condition : Expr
  op : Connective

/-- What a call asks for. -/
def Call.request (c : Call) : Request :=
  (c.op, compiled c.settings c.registry c.type c.condition)

/-- The conditions after a call. A call that fails leaves them as they were. -/
def call (cs : Conditions) (c : Call) : Conditions :=
  match (cs.add c.settings c.registry c.type c.condition c.op).2 with
  | .ok new => new
  | .error _ => cs

theorem call_eq (cs : Conditions) (c : Call) : cs.call c = cs ++ held (granted [c.request]) := by
  rw [call, add_eq, Call.request]
  cases compiled c.settings c.registry c.type c.condition with
  | error e => exact (List.append_nil cs).symm
  | ok text => rfl

/-- The conditions after a chain of calls are those of the calls that succeed. -/
theorem foldl_call (cs : Conditions) (calls : List Call) :
    calls.foldl call cs = cs ++ held (granted (calls.map Call.request)) := by
  induction calls generalizing cs with
  | nil => exact (List.append_nil cs).symm
  | cons c calls ih =>
    have hcons : granted ((c :: calls).map Call.request) =
        granted [c.request] ++ granted (calls.map Call.request) := granted_append [c.request] _
    rw [List.foldl_cons, ih, call_eq, hcons, held, held, held, List.map_append, List.append_assoc]

/-! ## The text of all conditions -/

theorem text_held_cons (c d : Connective × String) (rest : Conditions) :
    text (held (c :: d :: rest)) =
      grouped c.2 ++ (" " ++ d.1.keyword ++ " ") ++ text (held (d :: rest)) := by
  show grouped c.2 ++ (" " ++ d.1.keyword ++ " " ++ grouped d.2 ++ tailText (held rest)) =
    grouped c.2 ++ (" " ++ d.1.keyword ++ " ") ++ (grouped d.2 ++ tailText (held rest))
  simp only [String.append_assoc]

theorem text_held_singleton (c : Connective × String) : text (held [c]) = grouped c.2 :=
  String.append_empty

/-- The conditions of some calls, each in its parentheses and without blanks at its ends, and the
connectives between them. -/
def parts : Conditions → String × List (Connective × String)
  | [] => ("", [])
  | c :: rest => (trim (grouped c.2), rest.map fun d => (d.1, trim (grouped d.2)))

theorem text_held_balanced {asked : Conditions} (h : ∀ c ∈ asked, Balanced c.2) :
    Balanced (text (held asked)) := by
  induction asked with
  | nil => exact Closed.empty.nests
  | cons c rest ih =>
    obtain ⟨hc, hrest⟩ := List.forall_mem_cons.1 h
    cases rest with
    | nil =>
      rw [text_held_singleton]
      exact hc.grouped
    | cons d rest =>
      rw [text_held_cons]
      exact (hc.grouped.append (spacedKeyword_closed d.1).nests).append (ih hrest)

/-- Conditions that show no connective are found again in their text. -/
theorem split_held {asked : Conditions} (h : ∀ c ∈ asked, Balanced c.2)
    (hnone : ∀ c ∈ asked, (split (grouped c.2)).2 = []) :
    split (text (held asked)) = parts asked := by
  induction asked with
  | nil => decide
  | cons c rest ih =>
    obtain ⟨hc, hrest⟩ := List.forall_mem_cons.1 h
    obtain ⟨hfirst, hothers⟩ := List.forall_mem_cons.1 hnone
    have hwords := split_snd_eq_nil_iff.1 hfirst
    cases rest with
    | nil =>
      rw [text_held_singleton, split_eq_trim hwords]
      rfl
    | cons d rest =>
      rw [text_held_cons, split_link hc.grouped hwords (text_held_balanced hrest),
        ih hrest hothers]
      rfl

/-- **Conditions keep their structure.** The text of the conditions that a chain of typed calls
adds, split at the connectives outside its quotes and parentheses, is made of the conditions of the
calls that succeed, in their order and linked by their connectives, where that of the first is
dropped. Each condition is its compiled text, in one pair of parentheses unless it starts with one.
No compiled expression shows a connective itself. -/
theorem split_text (calls : List Call)
    (h : ∀ c ∈ calls, c.registry.Numbered ∧ c.condition.isTimeless = true) :
    (granted (calls.map Call.request) = [] → text (calls.foldl call []) = "") ∧
    (∀ first rest, granted (calls.map Call.request) = first :: rest →
      split (text (calls.foldl call [])) = (grouped first.2, held rest)) ∧
    ∀ (s : Scope) (named : Bool) (e : Expr) (t : String), s.Numbered → e.isTimeless = true →
      e.compile s named = .ok t → split t = (t, []) := by
  have hcompile (s : Scope) (named : Bool) (e : Expr) (t : String) (hs : s.Numbered)
      (he : e.isTimeless = true) (ht : e.compile s named = .ok t) : Unlinked t ∧ trim t = t := by
    obtain ⟨u, -, rfl⟩ := map_eq_ok.1 ht
    exact ⟨Expr.compile_unlinked hs he ht, trim_trim u⟩
  have hgranted : ∀ d ∈ granted (calls.map Call.request), Unlinked d.2 ∧ trim d.2 = d.2 := by
    intro d hd
    obtain ⟨c, hc, heq⟩ := List.mem_map.1 (mem_of_mem_granted hd)
    obtain ⟨hr, he⟩ := h c hc
    exact hcompile _ false _ _ (hr.add c.type false) he
      (compiled_eq_ok (Prod.mk.inj heq).2).1
  rw [foldl_call, List.nil_append]
  refine ⟨fun hnone => ?_, fun first rest heq => ?_, fun s named e t hs he ht => ?_⟩
  · rw [hnone]
    rfl
  · rw [heq] at hgranted ⊢
    have hnone : ∀ d ∈ first :: rest, (split (grouped d.2)).2 = [] := fun d hd =>
      split_snd_eq_nil_iff.2 (hgranted d hd).1.grouped.unlinked
    have htrim {d : Connective × String} (hd : d ∈ first :: rest) :
        trim (grouped d.2) = grouped d.2 := trim_grouped (hgranted d hd).2
    rw [split_held (fun d hd => (hgranted d hd).1.closed.nests) hnone, parts,
      htrim List.mem_cons_self]
    refine congrArg (grouped first.2, ·) (List.map_congr_left fun d hd => ?_)
    rw [htrim (List.mem_cons_of_mem first hd)]
  · obtain ⟨hunlinked, htrim⟩ := hcompile s named e t hs he ht
    rw [hunlinked.split_eq, htrim]

/-- A condition that starts with a parenthesis and is no group, one on an unknown column and one
with a connective in its literal. -/
theorem split_text_membership :
    let city : MappedType := ⟨"City", "City", none, [Column.plain "Id" "Id"]⟩
    let id : Expr := .column city "Id"
    let add (condition : Expr) (op : Connective) : Call :=
      ⟨.default, .empty "dbo", city, condition, op⟩
    let calls : List Call :=
      [add (.isIn (.binary .add id (.constant (.int 1))) (.constant (.list [.int 1, .int 2]))) .and,
        add (.isNull (.column city "Name")) .and,
        add (.binary .equal id (.constant (.string "x AND (y"))) .or]
    let text := "(t0.[Id] + 1) IN (1,2) OR (t0.[Id] = 'x AND (y')"
    Conditions.text (calls.foldl call []) = text ∧
      split text = ("(t0.[Id] + 1) IN (1,2)", [(.or, "(t0.[Id] = 'x AND (y')")]) := by
  intro city id add calls text
  have hcalls : ∀ c ∈ calls, c.registry.Numbered ∧ c.condition.isTimeless = true := by
    have hnumbered : ∀ c ∈ calls, c.registry = .empty "dbo" := by simp [calls, add]
    have htimeless : ∀ c ∈ calls, c.condition.isTimeless = true := by decide
    exact fun c hc => ⟨hnumbered c hc ▸ .empty "dbo", htimeless c hc⟩
  have hgranted : granted (calls.map Call.request) =
      [(.and, "(t0.[Id] + 1) IN (1,2)"), (.or, "(t0.[Id] = 'x AND (y')")] := by decide +kernel
  have htext : Conditions.text (calls.foldl call []) = text := by decide +kernel
  have hsplit := (split_text calls hcalls).2.1 _ _ hgranted
  rw [htext] at hsplit
  exact ⟨htext, hsplit⟩

end Conditions

end SqlWright
