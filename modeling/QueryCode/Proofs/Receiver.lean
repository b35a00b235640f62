import QueryCode.Convert
import QueryCode.Proofs.Naming.Model
import QueryCode.Proofs.Statement.Names

/-!
# Receivers of calls

All code but comments is a model and the calls on it. The model's name is what stands in front of the first point, so the
calls lack their receiver exactly if that name is empty, which of all named tables happens to a lone `s` behind
underscores: `convert_lacksReceiver_iff`.
-/

namespace QueryCode
set_option autoImplicit false

/-- The code is empty, or it starts with the point of a call. -/
def lacksReceiver (code : Text) : Bool := code.head?.all (· == '.')

/-- In front of calls the receiver is all that counts. -/
theorem lacksReceiver_append {calls : Text} (bare : lacksReceiver calls = true) (model : Text) :
    lacksReceiver (model ++ calls) = lacksReceiver model := by
  cases model with
  | nil => exact bare
  | cons c model => rfl

theorem lacksReceiver_iff {model : Text} (plain : '.' ∉ model) : lacksReceiver model = true ↔ model = [] := by
  cases model with
  | nil => exact iff_of_true rfl rfl
  | cons c model =>
    refine iff_of_false (fun point => plain ?_) (List.cons_ne_nil c model)
    obtain rfl : c = '.' := eq_of_beq point
    exact List.mem_cons_self

/-- The code is that of calls on a model. -/
def CallsOn (model : Text) (code : Code) : Prop := ∃ calls, code.text = model ++ calls ∧ lacksReceiver calls = true

/-! ## Writers -/

theorem Relation.callsOn_code (chain : Relation.Chain) : CallsOn chain.model chain.code := by
  refine ⟨Code.rowText (chain.calls.map Relation.Call.code), rfl, ?_⟩
  cases chain.calls with
  | nil => rfl
  | cons call calls =>
    obtain ⟨method, args⟩ := call
    cases args <;> rfl

namespace Finder

theorem callsOn_modelCall (s : Statement) (method : String) (items : List Code) :
    CallsOn (Naming.modelName s.table) (modelCall s method items) := ⟨_, rfl, rfl⟩

theorem callsOn_aggregateCall (s : Statement) (a : Aggregate) (options : List Code) :
    CallsOn (Naming.modelName s.table) (aggregateCall s a options) := by
  unfold aggregateCall
  dsimp only
  split
  · exact callsOn_modelCall s _ _
  · split
    · exact callsOn_modelCall s _ _
    · split <;> exact callsOn_modelCall s _ _

end Finder

/-- Queries, updates and deletions are written as calls on the model of their table. -/
structure Writer.Calls (w : Writer) (s : Statement) : Prop where
  select : Ensures (w.select s) (CallsOn (Naming.modelName s.table))
  update : Ensures (w.update s) (CallsOn (Naming.modelName s.table))
  delete : Ensures (w.delete s) (CallsOn (Naming.modelName s.table))

namespace Relation

/-- A chain that starts with the model of the table. -/
theorem ensures_callsOn {s : Statement} {found : Except Fault Chain}
    (model : Ensures found fun chain => chain.model = Naming.modelName s.table) :
    Ensures (do return (← found).code) (CallsOn (Naming.modelName s.table)) :=
  model.bind fun chain same => ensures_pure (same ▸ callsOn_code chain)

theorem Single.calls_writer (s : Statement) : Single.writer.Calls s where
  select := ensures_callsOn (.after _ fun _ => ensures_pure rfl)
  update := ensures_callsOn (.after _ fun _ => ensures_pure rfl)
  delete := ensures_callsOn (.after _ fun _ => ensures_pure rfl)

theorem Joined.calls_writer (s : Statement) : Joined.writer.Calls s where
  select := ensures_callsOn (.after _ fun _ => ensures_pure rfl)
  update := ensures_callsOn (.after _ fun _ => ensures_pure rfl)
  delete := ensures_callsOn (.after _ fun _ => ensures_pure rfl)

end Relation

namespace Finder

theorem Single.calls_writer (s : Statement) : Single.writer.Calls s where
  select := by
    refine .after _ fun found => ?_
    split
    · exact ensures_pure (callsOn_aggregateCall s _ _)
    · exact ensures_pure (callsOn_modelCall s _ _)
  update := .after _ fun _ => ensures_pure (callsOn_modelCall s _ _)
  delete := .after _ fun _ => ensures_pure (callsOn_modelCall s _ _)

theorem Joined.calls_writer (s : Statement) : Joined.writer.Calls s where
  select := by
    refine .after _ fun includes => .after _ fun found => ?_
    split
    · exact ensures_pure (callsOn_aggregateCall s _ _)
    · exact .after _ fun having => ensures_pure (callsOn_modelCall s _ _)
  update := .after _ fun _ => ensures_pure (callsOn_modelCall s _ _)
  delete := .after _ fun _ => ensures_pure (callsOn_modelCall s _ _)

end Finder

namespace Target

theorem calls_singleWriter (target : Target) (s : Statement) : target.singleWriter.Calls s := by
  cases target
  · exact Relation.Single.calls_writer s
  · exact Finder.Single.calls_writer s

theorem calls_joinedWriter (target : Target) (s : Statement) : target.joinedWriter.Calls s := by
  cases target
  · exact Relation.Joined.calls_writer s
  · exact Finder.Joined.calls_writer s

theorem callsOn_insert (target : Target) (s : Statement) :
    Ensures (target.singleWriter.insert s) (CallsOn (Naming.modelName s.table)) := by
  cases target
  · exact ensures_ok (Relation.callsOn_code _)
  · exact ensures_ok (Finder.callsOn_modelCall s _ _)

theorem lacksReceiver_comment (target : Target) (t : Text) : lacksReceiver (target.comment t) = false := by
  cases target <;> rfl

end Target

/-! ## Statements -/

namespace Statement

/-- The statement is written as calls, and not as a comment: its kind is known, and it is no insertion with joins. -/
def isCalled (s : Statement) : Bool :=
  match s.kind with
  | .unknown => false
  | .insert => s.joins.isEmpty
  | _ => true

/-- The code lacks a receiver exactly if it is that of calls on a model without a name. -/
def ShowsReceiver (s : Statement) (code : Code) : Prop :=
  lacksReceiver code.text = true ↔ Naming.modelName s.table = [] ∧ s.isCalled = true

variable {s : Statement} (plain : '.' ∉ Naming.modelName s.table)

theorem showsReceiver_comment (hidden : s.isCalled = false) (target : Target) (t : Text) :
    s.ShowsReceiver (.word (target.comment t)) := by
  rw [ShowsReceiver, Code.text, target.lacksReceiver_comment, hidden]
  simp

include plain

theorem showsReceiver_of_callsOn (called : s.isCalled = true) {x : Except Fault Code}
    (calls : Ensures x (CallsOn (Naming.modelName s.table))) : Ensures x s.ShowsReceiver := by
  intro code made
  obtain ⟨rest, text, bare⟩ := calls code made
  rw [ShowsReceiver, text, lacksReceiver_append bare, lacksReceiver_iff plain, and_iff_left called]

/-- Insertions apart, a writer writes calls or a comment by the kind of the statement alone. -/
theorem showsReceiver_writer {w : Writer} (calls : w.Calls s)
    (insert : s.kind = .insert → Ensures (w.insert s) s.ShowsReceiver) : Ensures (w.write s) s.ShowsReceiver := by
  unfold Writer.write
  split
  · rename_i kind
    exact showsReceiver_of_callsOn plain (by rw [isCalled, kind]) calls.select
  · rename_i kind
    exact insert kind
  · rename_i kind
    exact showsReceiver_of_callsOn plain (by rw [isCalled, kind]) calls.update
  · rename_i kind
    exact showsReceiver_of_callsOn plain (by rw [isCalled, kind]) calls.delete
  · rename_i kind
    exact ensures_ok (showsReceiver_comment (by rw [isCalled, kind]) w.target _)

theorem showsReceiver_write (target : Target) : Ensures (s.write target) s.ShowsReceiver := by
  unfold Statement.write
  split
  · rename_i alone
    refine showsReceiver_writer plain (target.calls_singleWriter s) fun kind => ?_
    exact showsReceiver_of_callsOn plain (by rw [isCalled, kind]; exact alone) (target.callsOn_insert s)
  · rename_i joined
    refine showsReceiver_writer plain (target.calls_joinedWriter s) fun kind => ?_
    have hidden : s.isCalled = false := by
      rw [isCalled, kind]
      simpa using joined
    cases target <;> exact ensures_ok (showsReceiver_comment hidden _ _)

end Statement

theorem Pattern.IsName.point_not_mem {t : Text} (named : IsName t) : '.' ∉ t := by
  intro mem
  rcases named.chars '.' mem with head | word
  · exact absurd head (by decide)
  · exact absurd word (by decide)

/-- **Every named table has a model, but for a lone `s`.** The model of a table with a letter or a digit in its name has a
name without underscores, which is empty exactly for the letter `s`, in any case, behind underscores. The code for a
statement on the table is empty or starts with the point of a call exactly for this name, if it is no comment. -/
theorem convert_lacksReceiver_iff {table : Text} (named : Pattern.IsName table)
    (lettered : ∃ c ∈ table, (Text.isLetter c || Text.isDigit c || Text.isNumeral c) = true) :
    '_' ∉ Naming.modelName table ∧ (Naming.modelName table = [] ↔ Naming.IsLoneS table) ∧
      ∀ target sql s code, Statement.parse sql = .ok s → s.table = table → convert target sql = .ok code →
        (lacksReceiver code = true ↔ Naming.IsLoneS table ∧ s.isCalled = true) := by
  have empty : Naming.modelName table = [] ↔ Naming.IsLoneS table := by
    rw [Naming.modelName_eq_nil]
    refine or_iff_right fun all => ?_
    obtain ⟨c, mem, letter⟩ := lettered
    rw [all c mem] at letter
    revert letter
    decide
  have plain : '.' ∉ Naming.modelName table := fun mem =>
    named.point_not_mem (Naming.mem_of_mem_modelName mem (by decide)).1
  refine ⟨fun mem => (Naming.mem_of_mem_modelName mem (by decide)).2 rfl, empty, ?_⟩
  rintro target sql s code read rfl converted
  rw [convert, read] at converted
  change (s.write target >>= fun made => pure made.text) = .ok code at converted
  cases written : s.write target with
  | error fault =>
    rw [written] at converted
    cases converted
  | ok made =>
    rw [written] at converted
    cases converted
    rw [← empty]
    exact Statement.showsReceiver_write plain target made written

/-- A query and a deletion on a lone `s`, and a query on a table that only ends in one. -/
theorem convert_lacksReceiver_iff_alone :
    let deletion := ".destroy(\x7b where: \x7b id: 1 \x7d \x7d)".toList
    (Naming.IsLoneS "s" ∧ Naming.modelName "s" = [] ∧
      convert .activeRecord "SELECT * FROM s" = .ok [] ∧ lacksReceiver [] = true) ∧
    (Naming.IsLoneS "__S" ∧ convert .sequelize "DELETE FROM __S WHERE id = 1" = .ok deletion ∧ lacksReceiver deletion = true) ∧
    ¬ Naming.IsLoneS "_bus" ∧ '_' ∉ Naming.modelName "_bus" ∧
      convert .activeRecord "SELECT * FROM _bus" = .ok "Bus".toList ∧ lacksReceiver "Bus" = false := by
  intro deletion
  have name {t : Text} (head : t.head?.any Pattern.isHead = true) (word : t.all Text.isWord = true) : Pattern.IsName t :=
    ⟨head, fun c mem => .inr (List.all_eq_true.1 word c mem)⟩
  have read {sql table : Text} (found : (Statement.parse sql).map Statement.table = .ok table) :
      ∃ s, Statement.parse sql = .ok s ∧ s.table = table := by
    cases parsed : Statement.parse sql with
    | error fault =>
      rw [parsed] at found
      cases found
    | ok s =>
      rw [parsed] at found
      exact ⟨s, rfl, Except.ok.inj found⟩
  have query : convert .activeRecord "SELECT * FROM s" = .ok [] := by decide +kernel
  have removal : convert .sequelize "DELETE FROM __S WHERE id = 1" = .ok deletion := by decide +kernel
  have bus : convert .activeRecord "SELECT * FROM _bus" = .ok "Bus".toList := by decide +kernel
  obtain ⟨-, empty, first⟩ :=
    convert_lacksReceiver_iff (name (t := "s") (by decide) (by decide)) ⟨'s', by decide, by decide⟩
  obtain ⟨-, -, second⟩ :=
    convert_lacksReceiver_iff (name (t := "__S") (by decide) (by decide)) ⟨'S', by decide, by decide⟩
  obtain ⟨bare, filled, -⟩ :=
    convert_lacksReceiver_iff (name (t := "_bus") (by decide) (by decide)) ⟨'b', by decide, by decide⟩
  have table : (Statement.parse "SELECT * FROM s").map Statement.table = .ok "s".toList := by decide +kernel
  have table' : (Statement.parse "DELETE FROM __S WHERE id = 1").map Statement.table = .ok "__S".toList := by decide +kernel
  obtain ⟨s, parsed, named⟩ := read table
  obtain ⟨s', parsed', named'⟩ := read table'
  have alone := ((first _ _ s _ parsed named query).1 rfl).1
  have alone' := ((second _ _ s' _ parsed' named' removal).1 rfl).1
  have other : ¬ Naming.IsLoneS "_bus" := fun lone => absurd (filled.2 lone) (by decide +kernel)
  exact ⟨⟨alone, empty.2 alone, query, rfl⟩, ⟨alone', removal, rfl⟩, other, bare, bus, rfl⟩

end QueryCode
