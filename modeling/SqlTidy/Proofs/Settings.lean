import Mathlib.Tactic.Common
import SqlTidy.Options.Lenient

/-!
# Settings and options

The options in a file are read twice: leniently when the file is checked, strictly when they are
set.  Both readings go option by option, so each of them comes down to six readings of one value.
Whatever is set strictly is read to the same effect leniently, and whatever was read leniently can
be set.  How lenient the reading of sizes is does not matter for this, as long as an integer is read
as itself.

## Main definitions

* `Options.toSettings o` — the settings that make up the options `o`.

## Main results

* `Options.update_eq_ok_iff` — when options can be set, and to what effect.
* `Settings.checkTable_eq_ok_iff` — when settings are in order, and what they are.
* `Settings.toOptions_eq_ok_iff` — when settings make up options.
* `settings_agree_options` — the two readings agree.
-/

namespace SqlTidy

/-! ### One value -/

/-- Two readings in a row go well if each of them does. -/
theorem bind_eq_ok_iff {ε α β : Type} {x : Except ε α} {f : α → Except ε β} {b : β} :
    x >>= f = .ok b ↔ ∃ a, x = .ok a ∧ f a = .ok b := by
  cases x <;> simp [bind, Except.bind]

namespace Value

variable {v : Value} {readInt : Value → Except Cause Int}

/-- A case style is set by its name, in any case. -/
theorem toCaseStyle_eq_ok_iff {style : CaseStyle} :
    v.toCaseStyle = .ok style ↔ v.caseStyle? = some style := by
  unfold toCaseStyle
  split <;> simp_all

/-- A size is set by a natural number and by nothing else. -/
theorem toSize_eq_ok_iff {f : Field} {n : Nat} : v.toSize f = .ok n ↔ v = .int n := by
  unfold toSize
  split
  · rw [Except.ok.injEq, int.injEq, Int.ofNat_eq_natCast, Int.natCast_inj]
  · next hv =>
    simp only [reduceCtorEq, false_iff]
    rintro rfl
    exact hv n rfl

/-- A text is set by a text and by nothing else. -/
theorem toText_eq_ok_iff {s : Text} : v.toText = .ok s ↔ v = .text s := by
  unfold toText
  split <;> simp_all

/-- A case style is checked as it is set. -/
theorem checkStyle_eq_ok_iff {style : CaseStyle} :
    v.checkStyle = .ok style ↔ v.caseStyle? = some style := by
  unfold checkStyle
  split <;> simp_all

/-- A text is checked as it is set. -/
theorem checkText_eq_ok_iff {s : Text} : v.checkText = .ok s ↔ v = .text s := by
  unfold checkText
  split <;> simp_all

/-- A size is an integer that is not negative. -/
theorem checkSize_eq_ok_iff {i : Int} :
    v.checkSize readInt = .ok i ↔ readInt v = .ok i ∧ 0 ≤ i := by
  simp only [checkSize, bind_eq_ok_iff]
  constructor
  · rintro ⟨j, hj, h⟩
    -- a negative integer is refused after it was read
    split at h
    · cases h
    · next hneg =>
      obtain rfl : j = i := by simpa [pure, Except.pure] using h
      exact ⟨hj, Int.not_lt.1 hneg⟩
  · rintro ⟨hi, hnonneg⟩
    exact ⟨i, hi, by rw [if_neg (Int.not_lt.2 hnonneg)]; rfl⟩

/-- A size that can be set is read to the same effect, if an integer is read as itself. -/
theorem checkSize_of_toSize (hread : ∀ i, readInt (.int i) = .ok i) {f : Field} {n : Nat}
    (h : v.toSize f = .ok n) : v.checkSize readInt = .ok (n : Int) := by
  rw [toSize_eq_ok_iff.1 h]
  exact checkSize_eq_ok_iff.2 ⟨hread n, Int.natCast_nonneg n⟩

end Value

/-! ### Option by option -/

/-- Options are set if every name is that of an option and every value that is given can be read. -/
theorem Options.update_eq_ok_iff {o o' : Options} {t : Table Value} :
    o.update t = .ok o' ↔ unknownNames t = [] ∧
      pick t .reservedCase o.reservedCase Value.toCaseStyle = .ok o'.reservedCase ∧
      pick t .objectCase o.objectCase Value.toCaseStyle = .ok o'.objectCase ∧
      pick t .functionCase o.functionCase Value.toCaseStyle = .ok o'.functionCase ∧
      pick t .indentSize o.indentSize (Value.toSize .indentSize) = .ok o'.indentSize ∧
      pick t .baseIndent o.baseIndent (Value.toSize .baseIndent) = .ok o'.baseIndent ∧
      pick t .indentText o.indentText Value.toText = .ok o'.indentText := by
  unfold update
  -- an unknown name is an error before any value is read
  split
  · next name names hnames => simp [hnames]
  · next hnames =>
    simp only [hnames, true_and, bind_eq_ok_iff]
    constructor
    · rintro ⟨a, ha, b, hb, c, hc, d, hd, e, he, f, hf, h⟩
      obtain rfl := Except.ok.inj h
      exact ⟨ha, hb, hc, hd, he, hf⟩
    · rintro ⟨ha, hb, hc, hd, he, hf⟩
      exact ⟨_, ha, _, hb, _, hc, _, hd, _, he, _, hf, rfl⟩

namespace Settings

variable {readInt : Value → Except Cause Int}

/-- Settings are in order if every name is that of an option and every value that is given can be
read. -/
theorem checkTable_eq_ok_iff {t : Table Value} {s : Settings} :
    checkTable readInt t = .ok s ↔ unknownNames t = [] ∧
      checkField t .reservedCase .uppercase Value.checkStyle = .ok s.reservedCase ∧
      checkField t .objectCase .lowercase Value.checkStyle = .ok s.objectCase ∧
      checkField t .functionCase .lowercase Value.checkStyle = .ok s.functionCase ∧
      checkField t .indentSize 4 (Value.checkSize readInt) = .ok s.indentSize ∧
      checkField t .baseIndent 0 (Value.checkSize readInt) = .ok s.baseIndent ∧
      checkField t .indentText [' '] Value.checkText = .ok s.indentText := by
  simp only [checkTable]
  constructor
  · intro h
    -- settings are in order only if all six readings went well and no name is unknown
    split at h
    · next ha hb hc hd he hf hnames =>
      obtain rfl := Except.ok.inj h
      exact ⟨List.map_eq_nil_iff.1 hnames, ha, hb, hc, hd, he, hf⟩
    · cases h
  · rintro ⟨hnames, ha, hb, hc, hd, he, hf⟩
    simp only [ha, hb, hc, hd, he, hf, hnames, List.map_nil]

/-- A value that is given is set as it is checked. -/
theorem checkField_of_pick {α β : Type} {read : Value → Except OptionError α}
    {check : Value → Except Cause β} {g : α → β}
    (hread : ∀ {v a}, read v = .ok a → check v = .ok (g a)) {t : Table Value} {f : Field}
    {old a : α} (h : Options.pick t f old read = .ok a) :
    checkField t f (g old) check = .ok (g a) := by
  unfold Options.pick at h
  unfold checkField
  -- an option that is not given keeps its old value there, and its default here
  cases hv : f.given t with
  | none =>
    rw [hv] at h
    obtain rfl := Except.ok.inj h
    rfl
  | some v =>
    rw [hv] at h
    simp only [hread h]
    rfl

/-- A size that is in order is not negative, whether it was given or is the default. -/
theorem nonneg_of_checkField {t : Table Value} {f : Field} {default i : Int}
    (hdefault : 0 ≤ default) (h : checkField t f default (Value.checkSize readInt) = .ok i) :
    0 ≤ i := by
  unfold checkField at h
  split at h
  · next v _ =>
    cases hv : v.checkSize readInt with
    | error cause => rw [hv] at h; cases h
    | ok j =>
      rw [hv] at h
      obtain rfl := Except.ok.inj h
      exact (Value.checkSize_eq_ok_iff.1 hv).2
  · obtain rfl := Except.ok.inj h
    exact hdefault

end Settings

/-! ### From settings to options -/

/-- A case style is known by its name. -/
theorem CaseStyle.ofName?_name (style : CaseStyle) : ofName? style.name = some style := by
  cases style <;> decide

/-- The settings that make up options. -/
def Options.toSettings (o : Options) : Settings :=
  { reservedCase := o.reservedCase, objectCase := o.objectCase, functionCase := o.functionCase,
    indentSize := o.indentSize, baseIndent := o.baseIndent, indentText := o.indentText }

namespace Settings

variable {s : Settings} {o : Options} {readInt : Value → Except Cause Int}

/-- The names of settings are those of options. -/
theorem unknownNames_toTable (s : Settings) : unknownNames s.toTable = [] := rfl

/-- Settings make up options if and only if they are those of the options. -/
theorem toOptions_eq_ok_iff : s.toOptions = .ok o ↔ s = o.toSettings := by
  have hstyle : ∀ a b : CaseStyle, (Value.text a.name).toCaseStyle = .ok b ↔ a = b := by
    intro a b
    rw [Value.toCaseStyle_eq_ok_iff, Value.caseStyle?, CaseStyle.ofName?_name, Option.some.injEq]
  rw [toOptions, Options.ofTable, Options.update_eq_ok_iff, and_iff_right s.unknownNames_toTable]
  -- every option is given, so that no default is picked
  change (Value.text s.reservedCase.name).toCaseStyle = _ ∧
    (Value.text s.objectCase.name).toCaseStyle = _ ∧
    (Value.text s.functionCase.name).toCaseStyle = _ ∧
    (Value.int s.indentSize).toSize _ = _ ∧ (Value.int s.baseIndent).toSize _ = _ ∧
    (Value.text s.indentText).toText = _ ↔ _
  simp only [hstyle, Value.toSize_eq_ok_iff, Value.toText_eq_ok_iff, Value.int.injEq,
    Value.text.injEq]
  obtain ⟨a, b, c, d, e, f⟩ := s
  simp only [Options.toSettings, Settings.mk.injEq]

/-- Settings whose sizes are not negative are those of some options. -/
theorem exists_eq_toSettings (hsize : 0 ≤ s.indentSize) (hbase : 0 ≤ s.baseIndent) :
    ∃ o : Options, s = o.toSettings := by
  obtain ⟨a, b, c, d, e, f⟩ := s
  obtain ⟨d, rfl⟩ := Int.eq_ofNat_of_zero_le hsize
  obtain ⟨e, rfl⟩ := Int.eq_ofNat_of_zero_le hbase
  exact ⟨⟨a, b, c, d, e, f⟩, rfl⟩

/-- Settings in order make up options. -/
theorem exists_toOptions_of_check {v : Value} (h : checkWith readInt v = .ok s) :
    ∃ o, s.toOptions = .ok o ∧ s = o.toSettings := by
  unfold checkWith at h
  split at h
  -- only the sizes could be refused, if they were negative
  · obtain ⟨-, -, -, -, hsize, hbase, -⟩ := checkTable_eq_ok_iff.1 h
    obtain ⟨o, ho⟩ := exists_eq_toSettings (nonneg_of_checkField (by decide) hsize)
      (nonneg_of_checkField (by decide) hbase)
    exact ⟨o, toOptions_eq_ok_iff.2 ho, ho⟩
  · cases h

/-- Where a table sets options, it has their settings in it. -/
theorem check_of_ofTable (hread : ∀ i, readInt (.int i) = .ok i) {t : Table Value}
    (h : Options.ofTable t = .ok o) : checkWith readInt (.table t) = .ok o.toSettings := by
  obtain ⟨hnames, ha, hb, hc, hd, he, hf⟩ := Options.update_eq_ok_iff.1 h
  have hstyle : ∀ {v : Value} {a : CaseStyle}, v.toCaseStyle = .ok a → v.checkStyle = .ok a :=
    fun h => Value.checkStyle_eq_ok_iff.2 (Value.toCaseStyle_eq_ok_iff.1 h)
  have htext : ∀ {v : Value} {a : Text}, v.toText = .ok a → v.checkText = .ok a :=
    fun h => Value.checkText_eq_ok_iff.2 (Value.toText_eq_ok_iff.1 h)
  exact checkTable_eq_ok_iff.2 ⟨hnames, checkField_of_pick (g := id) hstyle ha,
    checkField_of_pick (g := id) hstyle hb, checkField_of_pick (g := id) hstyle hc,
    checkField_of_pick (Value.checkSize_of_toSize hread) hd,
    checkField_of_pick (Value.checkSize_of_toSize hread) he,
    checkField_of_pick (g := id) htext hf⟩

end Settings

/-- The two readings of a table agree.  Options that can be set from it are the ones that its
settings make up, and settings that are in order always make up options: sizes that are not
negative, and everything else as it was checked.  This holds of every way of reading integers that
reads an integer as itself; `Settings.check` is the one with `Value.checkInteger`. -/
theorem settings_agree_options (readInt : Value → Except Cause Int)
    (hread : ∀ i, readInt (.int i) = .ok i) (t : Table Value) :
    (∀ o, Options.ofTable t = .ok o →
      ∃ s, Settings.checkWith readInt (.table t) = .ok s ∧ s.toOptions = .ok o) ∧
    ∀ s, Settings.checkWith readInt (.table t) = .ok s →
      0 ≤ s.indentSize ∧ 0 ≤ s.baseIndent ∧ ∃ o, s.toOptions = .ok o ∧
        o.reservedCase = s.reservedCase ∧ o.objectCase = s.objectCase ∧
        o.functionCase = s.functionCase ∧ o.indentSize = s.indentSize ∧
        o.baseIndent = s.baseIndent ∧ o.indentText = s.indentText := by
  constructor
  · intro o ho
    exact ⟨o.toSettings, Settings.check_of_ofTable hread ho, Settings.toOptions_eq_ok_iff.2 rfl⟩
  · intro s hs
    obtain ⟨o, ho, rfl⟩ := Settings.exists_toOptions_of_check hs
    exact ⟨Int.natCast_nonneg _, Int.natCast_nonneg _, o, ho, rfl, rfl, rfl, rfl, rfl, rfl⟩

/-- A size beyond all machine integers is set and checked alike; a truth value and a text are sizes
for the lenient reading alone. -/
theorem settings_agree_options_sizes :
    let wide : Table Value := [("indent_size".toList, .int 18446744073709551616),
      ("object_case".toList, .text "Capitalize".toList)]
    let loose : Table Value := [("indent_size".toList, .bool true),
      ("base_indent".toList, .text " 1_000 ".toList)]
    let o : Options := { objectCase := .capitalize, indentSize := 18446744073709551616 }
    let s : Settings := { indentSize := 1, baseIndent := 1000 }
    Options.ofTable wide = .ok o ∧
    (∃ s, Settings.check (.table wide) = .ok s ∧ s.toOptions = .ok o) ∧
    (¬∃ o, Options.ofTable loose = .ok o) ∧
    Settings.check (.table loose) = .ok s ∧
    ∃ o, s.toOptions = .ok o ∧ o.indentSize = 1 ∧ o.baseIndent = 1000 := by
  intro wide loose o s
  have hset : Options.ofTable wide = .ok o := rfl
  have hcheck : Settings.check (.table loose) = .ok s := rfl
  have hread : ∀ i, Value.checkInteger (.int i) = .ok i := fun _ => rfl
  obtain ⟨-, -, o', ho', -, -, -, hsize, hbase, -⟩ :=
    (settings_agree_options _ hread loose).2 s hcheck
  refine ⟨hset, (settings_agree_options _ hread wide).1 o hset, ?_, hcheck, o', ho', ?_, ?_⟩
  · rintro ⟨o, ho⟩
    cases ho
  · exact Int.ofNat_inj.1 hsize
  · exact Int.ofNat_inj.1 hbase

end SqlTidy
