import QueryCode.Proofs.Condition.Printed
import QueryCode.Proofs.Convert
import QueryCode.Proofs.Statement.Values

/-!
# Text that strings do not hold

A string literal of one language starts an interpolation at a number sign with a brace behind it, and one of the other
must not go over the end of a line. Strings are written with backslashes and double quotes escaped and with nothing
else changed, so a literal is exposed to this exactly if the text it holds is loaded with such characters. No writer
brings them in: `convert_exposes_iff` says that only a loaded statement makes exposed literals, and that a loaded value
always does.
-/

namespace QueryCode
set_option autoImplicit false

namespace Target

/-- The language does not take the literal as plain text: an interpolation starts in it, or a line ends in it. -/
def Exposes : Target → List Code.Glyph → Prop
  | .activeRecord, literal => [⟨'#', false⟩, ⟨'\x7b', false⟩] <:+: literal
  | .sequelize, literal => ∃ glyph ∈ literal, glyph.char = '\n' ∨ glyph.char = '\r'

/-- The text holds characters that the language would not take as plain text in a string. -/
def Loaded : Target → Text → Prop
  | .activeRecord, t => ['#', '\x7b'] <:+: t
  | .sequelize, t => '\n' ∈ t ∨ '\r' ∈ t

/-- The characters of loaded text. -/
def ban : Target → Text.Ban
  | .activeRecord =>
    { char := fun _ => false
      pair := fun c d => c == '#' && d == '\x7b'
      char_tame := fun _ => rfl
      pair_left := fun tame => Bool.and_eq_false_imp.2 fun sign => by
        rw [beq_iff_eq.1 sign] at tame
        cases tame
      pair_right := fun tame => Bool.and_eq_false_iff.2 <| .inr <| beq_eq_false_iff_ne.2 fun brace => by
        rw [brace] at tame
        cases tame }
  | .sequelize =>
    { char := fun c => c == '\n' || c == '\r'
      pair := fun _ _ => false
      char_tame := fun tame => Bool.or_eq_false_iff.2 <| by
        constructor <;> refine beq_eq_false_iff_ne.2 fun same => ?_ <;> rw [same] at tame <;> cases tame
      pair_left := fun _ => rfl
      pair_right := fun _ => rfl }

theorem avoids_ban_iff (target : Target) {t : Text} : t.Avoids target.ban ↔ ¬ target.Loaded t := by
  cases target with
  | activeRecord =>
    constructor
    · -- the pair would stand in the chain of neighbours
      rintro ⟨-, pairs⟩ ⟨before, after, rfl⟩
      rw [List.append_assoc] at pairs
      have apart := List.isChain_iff_forall_rel_of_append_cons_cons.1 pairs rfl
      exact absurd apart (by decide)
    · refine fun absent => ⟨fun _ _ => rfl, List.isChain_iff_forall_rel_of_append_cons_cons.2 ?_⟩
      rintro c d before after rfl
      rw [← Bool.not_eq_true]
      intro meet
      obtain ⟨sign, brace⟩ := Bool.and_eq_true_iff.1 meet
      rw [beq_iff_eq] at sign brace
      subst sign brace
      exact absent ⟨before, after, List.append_assoc ..⟩
  | sequelize =>
    constructor
    · rintro ⟨chars, -⟩ (feed | return')
      · exact absurd (chars _ feed) (by decide)
      · exact absurd (chars _ return') (by decide)
    · refine fun absent => ⟨fun c mem => Bool.or_eq_false_iff.2 ⟨?_, ?_⟩, ?_⟩
      · exact beq_eq_false_iff_ne.2 fun same => absent (.inl (same ▸ mem))
      · exact beq_eq_false_iff_ne.2 fun same => absent (.inr (same ▸ mem))
      · exact List.isChain_iff_forall_rel_of_append_cons_cons.2 fun _ _ _ _ _ => rfl

/-- **A literal is exposed exactly if its text is loaded.** -/
theorem exposes_glyphs_iff (target : Target) (t : Text) : target.Exposes (Code.glyphs t) ↔ target.Loaded t := by
  cases target with
  | activeRecord =>
    constructor
    · intro exposed
      have chars := exposed.map Code.Glyph.char
      rwa [Code.map_char_glyphs] at chars
    · intro loaded
      exact List.IsInfix.map (fun c => (⟨c, c == '\\' || c == '"'⟩ : Code.Glyph)) loaded
  | sequelize =>
    constructor
    · rintro ⟨glyph, mem, broken⟩
      obtain ⟨c, member, rfl⟩ := List.mem_map.1 mem
      rcases broken with rfl | rfl
      · exact .inl member
      · exact .inr member
    · rintro (feed | return')
      · exact ⟨_, List.mem_map_of_mem feed, .inl rfl⟩
      · exact ⟨_, List.mem_map_of_mem return', .inr rfl⟩

end Target

/-! ## Clean statements make clean code -/

/-- The literals of converted code are strings that avoid what the statement avoids. -/
theorem literals_of_convert {target : Target} {sql code : Text} (converted : convert target sql = .ok code) :
    ∃ values : List Text, Code.literals code = values.map Code.glyphs ∧
      ∀ ban : Text.Ban, sql.Avoids ban → ∀ value ∈ values, value.Avoids ban := by
  have read : Ensures (Statement.parse sql) fun s => ∀ ban : Text.Ban, sql.Avoids ban → s.Avoids ban :=
    fun s found _ avoids => Statement.ensures_parse_avoids avoids s found
  have written {s : Statement} (kept : ∀ ban : Text.Ban, sql.Avoids ban → s.Avoids ban) :
      Ensures (s.write target) fun made => ∀ ban : Text.Ban, sql.Avoids ban → made.Clean ban :=
    fun made found ban avoids => Statement.ensures_clean_write target (kept ban avoids) made found
  have ensured : Ensures (convert target sql) fun code => ∃ values : List Text,
      Code.literals code = values.map Code.glyphs ∧
        ∀ ban : Text.Ban, sql.Avoids ban → ∀ value ∈ values, value.Avoids ban := by
    refine read.bind fun s kept => (written kept).bind fun made clean => ensures_pure ?_
    have inert := (clean .nothing (Text.avoids_nothing sql)).inert
    exact ⟨made.strings, inert.literals_text, fun ban avoids => (clean ban avoids).strings⟩
  exact ensured code converted

/-! ## Strings in insertions -/

section Writers

variable {s : Statement} {column raw t : Text} (columns : s.columns = [{ name := column, table := none }])
  (plain : Naming.isIdentifier column = true) (values : s.values = some [raw])
  (string : Literal.ofToken raw = .string t)
include columns plain values string

theorem Relation.Single.strings_insertChain : (insertChain s).code.strings = [t] := by
  simp [insertChain, Chain.code, insertPairs, columns, values, call, Call.code, pair, Naming.hashKey, Naming.key, plain,
    value, string, Literal.code, Code.strings, Code.allStrings, Code.strings_append, Code.args]

theorem Finder.Single.strings_insert : (insert s).strings = [t] := by
  simp [insert, modelCall, insertFields, columns, values, Naming.key, plain, value, string, Literal.code, Code.strings,
    Code.allStrings, Code.args, Code.object]

end Writers

section Insert

open Statement (insertText isFreeName)
open Condition (quoted)

variable {table column t : Text} (free : isFreeName table = true) (free' : isFreeName column = true)
include free free'

/-- The value of an insertion becomes the only string of its code. -/
theorem literals_convert_insertText (target : Target) (plain : '\\' ∉ t) :
    ∃ code, convert target (insertText table [column] [quoted t]) = .ok code ∧
      Code.literals code = [Code.glyphs t] := by
  have inside := Condition.quoted_doubleQuotes plain
  have balanced := Condition.isBalanced_quoted inside
  have columns : ∀ c ∈ [column], isFreeName c = true := List.forall_mem_singleton.2 free'
  have read := Statement.parse_insertion (Statement.isSpelled_of_isFreeName free) columns
    (List.forall_mem_singleton.2 ⟨Condition.isItem_quoted inside, balanced⟩)
  obtain ⟨s, parsed, kind, named, values, alone⟩ : ∃ s, Statement.parse (insertText table [column] [quoted t]) = .ok s ∧
      s.kind = .insert ∧ s.columns = [{ name := column, table := none }] ∧ s.values = some [quoted t] ∧ s.joins = [] :=
    ⟨_, read, rfl, rfl, rfl, rfl⟩
  have string : Literal.ofToken (quoted t) = .string t := by
    have enclosed : Literal.InQuotes (Text.trim (quoted t)) '\'' (Predicate.doubleQuotes t) := by
      rw [(Condition.isItem_quoted inside).trimmed]
      exact ⟨rfl, rfl⟩
    rw [Literal.ofToken_inQuotes enclosed, Condition.undouble_doubleQuotes]
  have identifier := Statement.isIdentifier_of_isFreeName free'
  -- without joins the insertion goes to the writer for one model
  have single : s.write target = target.singleWriter.insert s := by
    rw [Statement.write, alone, List.isEmpty_nil, if_pos rfl, Writer.write, kind]
  obtain ⟨made, written, strings⟩ : ∃ made, s.write target = .ok made ∧ made.strings = [t] := by
    rw [single]
    cases target with
    | activeRecord => exact ⟨_, rfl, Relation.Single.strings_insertChain named identifier values string⟩
    | sequelize => exact ⟨_, rfl, Finder.Single.strings_insert named identifier values string⟩
  have avoids := Statement.ensures_parse_avoids (Text.avoids_nothing _) s parsed
  have inert := (Statement.ensures_clean_write target avoids made written).inert
  refine ⟨made.text, ?_, ?_⟩
  · rw [convert, parsed]
    show (s.write target >>= fun code => pure code.text) = _
    rw [written]
    rfl
  · rw [inert.literals_text, strings]
    rfl

/-- Around its value an insertion has tame text only. -/
theorem avoids_insertText {ban : Text.Ban} (avoids : t.Avoids ban) :
    (insertText table [column] [quoted t]).Avoids ban := by
  have name {t : Text} (free : isFreeName t = true) : t.Tame := fun c mem =>
    Text.isTame_of_class (by decide) (Statement.isWord_of_isFreeName free c mem)
  have literal : (quoted t).Avoids ban :=
    (Text.Tame.append_avoids (t := ['\'']) (by decide) (Predicate.avoids_append_doubleQuotes [] t avoids)).append_tame
      (by decide)
  have list : Text.Tame ('(' :: column ++ [')']) :=
    Text.tame_append.2 ⟨Text.tame_cons.2 ⟨by decide, name free'⟩, by decide⟩
  have names : Text.Tame (Statement.columnsText table column) :=
    Text.tame_append.2 ⟨by decide, Text.tame_cons.2 ⟨by decide, Text.tame_append.2 ⟨by decide, Text.tame_cons.2
      ⟨by decide, Text.tame_append.2 ⟨name free, Text.tame_cons.2 ⟨by decide, list⟩⟩⟩⟩⟩⟩
  have row : Text.Avoids ban (" VALUES (" ++ (quoted t ++ ")")) :=
    Text.Tame.append_avoids (by decide) (literal.append_tame (by decide))
  rw [insertText, Text.join_singleton, Text.join_singleton]
  exact names.append_avoids row

end Insert

/-- **Literals are exposed by loaded statements only, and by loaded values always.** Every literal of the code holds
some text as it stands and is exposed exactly if that text is loaded, which takes a loaded statement. An insertion of
one value without backslashes is converted, its code has the value as its only literal, and this literal is exposed
exactly if the statement is loaded. -/
theorem convert_exposes_iff (target : Target) :
    (∀ sql code, convert target sql = .ok code → ∀ literal ∈ Code.literals code,
      (∃ value, literal = Code.glyphs value ∧ (target.Exposes literal ↔ target.Loaded value)) ∧
        (target.Exposes literal → target.Loaded sql)) ∧
    ∀ table column t : Text, Statement.isFreeName table = true → Statement.isFreeName column = true → '\\' ∉ t →
      ∃ code, convert target (Statement.insertText table [column] [Condition.quoted t]) = .ok code ∧
        Code.literals code = [Code.glyphs t] ∧
        (target.Exposes (Code.glyphs t) ↔
          target.Loaded (Statement.insertText table [column] [Condition.quoted t])) := by
  have confined {sql code : Text} (converted : convert target sql = .ok code) {literal : List Code.Glyph}
      (mem : literal ∈ Code.literals code) :
      (∃ value, literal = Code.glyphs value ∧ (target.Exposes literal ↔ target.Loaded value)) ∧
        (target.Exposes literal → target.Loaded sql) := by
    obtain ⟨values, literals, avoids⟩ := literals_of_convert converted
    rw [literals] at mem
    obtain ⟨value, member, rfl⟩ := List.mem_map.1 mem
    have same := target.exposes_glyphs_iff value
    refine ⟨⟨value, rfl, same⟩, fun exposed => ?_⟩
    by_contra safe
    exact target.avoids_ban_iff.1 (avoids _ (target.avoids_ban_iff.2 safe) value member) (same.1 exposed)
  refine ⟨fun sql code converted literal mem => confined converted mem, fun table column t free free' plain => ?_⟩
  obtain ⟨code, converted, literals⟩ := literals_convert_insertText free free' target plain
  refine ⟨code, converted, literals, fun exposed => ?_, fun loaded => ?_⟩
  · refine (confined converted ?_).2 exposed
    rw [literals]
    exact List.mem_singleton_self _
  · by_contra safe
    rw [target.exposes_glyphs_iff, ← target.avoids_ban_iff] at safe
    exact target.avoids_ban_iff.1 (avoids_insertText free free' safe) loaded

/-- An interpolation in a condition, and a line break in a value. -/
theorem convert_exposes_value :
    let sql := "SELECT * FROM users WHERE name = '#\x7bx\x7d'".toList
    let code := "User.where(name: \"#\x7bx\x7d\")".toList
    let row := "INSERT INTO users (name) VALUES ('a\nb')".toList
    let made := "User.create(\x7b name: \"a\nb\" \x7d)".toList
    (convert .activeRecord sql = .ok code ∧ Code.literals code = [Code.glyphs "#\x7bx\x7d"] ∧
      Target.Exposes .activeRecord (Code.glyphs "#\x7bx\x7d") ∧ Target.Loaded .activeRecord sql) ∧
    convert .sequelize row = .ok made ∧ Code.literals made = [Code.glyphs "a\nb"] ∧
      Target.Exposes .sequelize (Code.glyphs "a\nb") ∧ Target.Loaded .sequelize row := by
  intro sql code row made
  have converted : convert .activeRecord sql = .ok code := by decide +kernel
  have literals : Code.literals code = [Code.glyphs "#\x7bx\x7d"] := by decide +kernel
  have exposed : Target.Exposes .activeRecord (Code.glyphs "#\x7bx\x7d") := ⟨[], Code.glyphs "x\x7d", rfl⟩
  have first := (convert_exposes_iff .activeRecord).1 sql code converted _ (literals ▸ List.mem_singleton_self _)
  have broken : Target.Loaded .sequelize row := .inl (by decide)
  obtain ⟨found, written, held, exposes⟩ :=
    (convert_exposes_iff .sequelize).2 "users" "name" "a\nb" (by decide) (by decide) (by decide)
  have same : convert .sequelize row = .ok made := by decide +kernel
  obtain rfl : made = found := Except.ok.inj (same.symm.trans written)
  exact ⟨⟨converted, literals, exposed, first.2 exposed⟩, same, held, exposes.2 broken, broken⟩

end QueryCode
