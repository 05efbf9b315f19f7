import LayeredConfig.Proofs.Value.Canonical

/-!
Displayed forms and how they are told from each other. Scalars, and lists of them at any depth, that are
displayed alike have one canonical text, so sorting by displayed forms leaves nothing open.
-/

namespace LayeredConfig

open Text

namespace Binary64

/-- The text of a number decides how it is written canonically. -/
theorem canonicalFloat_eq_of_text {x y : Binary64} (same : x.text = y.text) :
    Value.canonicalFloat x = Value.canonicalFloat y := by
  rcases kinds_of_text same with ⟨_, rfl, rfl⟩ | ⟨_, _, rfl, rfl⟩ | ⟨_, _, _, _, _, _, _, _, rfl, rfl⟩
  · rfl
  · rfl
  · simp only [Value.canonicalFloat, same]

end Binary64

namespace Scalar

section calls

variable {name : String} {parts others : List String}

theorem toList_intercalate (parts : List String) :
    (", ".intercalate parts).toList = [',', ' '].intercalate (parts.map String.toList) := by
  rw [String.toList_intercalate]
  rfl

theorem callText_front (told : ∀ part ∈ parts, ∀ other ∈ others, Told part.toList other.toList)
    (opens : ∀ part ∈ parts, Opens part.toList) (opens' : ∀ other ∈ others, Opens other.toList)
    {rest rest' : List Char} (same : callText name parts ++ rest = callText name others ++ rest') :
    parts = others := by
  simp only [callText, toList_intercalate, List.append_assoc, List.cons_append, List.nil_append] at same
  have inner := (List.cons.inj (List.append_cancel_left same)).2
  have found := group_injective (by decide) (by decide) (by simpa using told) (by simpa using opens)
    (by simpa using opens') inner
  exact List.map_injective_iff.mpr (fun _ _ => String.toList_inj.mp) found.1

end calls

theorem plain_nat (n : Nat) : Plain (toString n).toList :=
  fun _ member => not_stop_of_isDigit (isDigit_of_mem_toString member)

theorem opens_nat (n : Nat) : Opens (toString n).toList := by
  obtain ⟨c, rest, figures, digit⟩ := exists_digit n
  exact ⟨c, rest, figures, not_stop_of_isDigit digit⟩

theorem toString_inj {m n : Nat} : toString m = toString n ↔ m = n :=
  ⟨fun same => toString_nat_injective (congrArg String.toList same), congrArg toString⟩

theorem date_front {date date' : Date} {rest rest' : List Char}
    (same : (Scalar.date date).display ++ rest = (Scalar.date date').display ++ rest') : date = date' := by
  have numbers (date : Date) : ∀ part ∈ [toString date.year, toString date.month, toString date.day],
      ∃ n : Nat, part = toString n := by
    simp
  have found := callText_front (fun part member other member' => ?_) (fun part member => ?_)
    (fun part member => ?_) same
  · rcases date with ⟨_, _, _⟩
    rcases date' with ⟨_, _, _⟩
    simp only [List.cons.injEq, toString_inj, and_true] at found
    obtain ⟨rfl, rfl, rfl⟩ := found
    rfl
  · obtain ⟨n, rfl⟩ := numbers date part member
    obtain ⟨n', rfl⟩ := numbers date' other member'
    exact (plain_nat n).told (plain_nat n')
  · obtain ⟨n, rfl⟩ := numbers date part member
    exact opens_nat n
  · obtain ⟨n, rfl⟩ := numbers date' part member
    exact opens_nat n

/-- What follows the name of a zone in its displayed form. -/
def zoneText (distance : Int) : List Char :=
  if distance = 0 then ".utc".toList
  else if distance < 0 then
    "(datetime.timedelta(days=-1, seconds=".toList ++ ((toString (86400 + distance)).toList ++ "))".toList)
  else "(datetime.timedelta(seconds=".toList ++ ((toString distance).toList ++ "))".toList)

theorem toList_displayOffset (distance : Int) :
    (displayOffset distance).toList = "datetime.timezone".toList ++ zoneText distance := by
  have plain (text : String) : toString text = text := rfl
  unfold displayOffset zoneText
  by_cases zero : distance = 0
  · simp only [zero, beq_self_eq_true, if_true]
    decide
  · by_cases negative : distance < 0
    · simp [zero, negative, plain]
    · simp [zero, negative, plain]

theorem bracketed_front {m n : Int} {rest rest' : List Char}
    (same : (toString m).toList ++ ("))".toList ++ rest) = (toString n).toList ++ ("))".toList ++ rest')) :
    m = n := by
  have bounded (rest : List Char) : Bounded ("))".toList ++ rest) := bounded_cons (by decide) _
  exact toString_int_injective ((plain_int m).told (plain_int n) _ _ (bounded _) (bounded _) same)

theorem zoneText_front {distance distance' : Int} {rest rest' : List Char}
    (same : zoneText distance ++ rest = zoneText distance' ++ rest') : distance = distance' := by
  unfold zoneText at same
  split at same
  · next zero =>
    split at same
    · next zero' => rw [zero, zero']
    split at same
    · cases same
    · cases same
  split at same
  · split at same
    · cases same
    split at same
    · simp only [List.append_assoc] at same
      have numbers := bracketed_front (List.append_cancel_left same)
      omega
    · have letter := congrArg (·[20]?) same
      simp at letter
  · split at same
    · cases same
    split at same
    · have letter := congrArg (·[20]?) same
      simp at letter
    · simp only [List.append_assoc] at same
      exact bracketed_front (List.append_cancel_left same)

section moments

/-- A part of a displayed moment: a number or a zone. -/
def IsMomentPart (part : String) : Prop :=
  (∃ n : Nat, part = toString n) ∨ ∃ distance, part = "tzinfo=" ++ displayOffset distance

/-- The seconds of a moment as they are displayed. -/
def secondParts (m : Moment) : List String :=
  if m.microsecond != 0 then [toString m.second, toString m.microsecond]
  else if m.second != 0 then [toString m.second] else []

def zoneParts (m : Moment) : List String :=
  (m.offset.map fun distance => "tzinfo=" ++ displayOffset distance).toList

theorem momentParts_eq (m : Moment) : momentParts m =
    [toString m.date.year, toString m.date.month, toString m.date.day, toString m.hour,
      toString m.minute] ++ (secondParts m ++ zoneParts m) := by
  rw [← List.append_assoc]
  rfl

theorem exists_number_of_mem_secondParts {m : Moment} {part : String} (member : part ∈ secondParts m) :
    ∃ n : Nat, part = toString n := by
  unfold secondParts at member
  split at member
  · simp only [List.mem_cons, List.not_mem_nil, or_false] at member
    rcases member with rfl | rfl
    · exact ⟨_, rfl⟩
    · exact ⟨_, rfl⟩
  split at member
  · exact ⟨_, List.mem_singleton.mp member⟩
  · cases member

theorem exists_zone_of_mem_zoneParts {m : Moment} {part : String} (member : part ∈ zoneParts m) :
    ∃ distance, part = "tzinfo=" ++ displayOffset distance := by
  simp only [zoneParts, Option.mem_toList, Option.map_eq_some_iff] at member
  obtain ⟨distance, -, rfl⟩ := member
  exact ⟨distance, rfl⟩

theorem isMomentPart_of_mem {m : Moment} {part : String} (member : part ∈ momentParts m) :
    IsMomentPart part := by
  rw [momentParts_eq, List.mem_append, List.mem_append] at member
  rcases member with first | second | zone
  · simp only [List.mem_cons, List.not_mem_nil, or_false] at first
    rcases first with rfl | rfl | rfl | rfl | rfl <;> exact .inl ⟨_, rfl⟩
  · exact .inl (exists_number_of_mem_secondParts second)
  · exact .inr (exists_zone_of_mem_zoneParts zone)

theorem toList_zone (distance : Int) : ("tzinfo=" ++ displayOffset distance).toList =
    't' :: ("zinfo=datetime.timezone".toList ++ zoneText distance) := by
  rw [String.toList_append, toList_displayOffset]
  rfl

theorem told_of_isMomentPart {part other : String} (isPart : IsMomentPart part)
    (isPart' : IsMomentPart other) : Told part.toList other.toList := by
  have number_ne_zone (n : Nat) (distance : Int) :
      Told (toString n).toList ("tzinfo=" ++ displayOffset distance).toList := by
    obtain ⟨c, rest, figures, digit⟩ := exists_digit n
    rw [figures, toList_zone]
    refine told_of_ne ?_ _ _
    rintro rfl
    cases digit
  rcases isPart with ⟨n, rfl⟩ | ⟨distance, rfl⟩
  · rcases isPart' with ⟨n', rfl⟩ | ⟨distance', rfl⟩
    · exact (plain_nat n).told (plain_nat n')
    · exact number_ne_zone n distance'
  · rcases isPart' with ⟨n', rfl⟩ | ⟨distance', rfl⟩
    · exact (number_ne_zone n' distance).symm
    · intro rest rest' _ _ same
      rw [toList_zone, toList_zone] at same
      simp only [List.cons_append, List.append_assoc] at same
      rw [zoneText_front (List.append_cancel_left (List.cons.inj same).2)]

theorem opens_of_isMomentPart {part : String} (isPart : IsMomentPart part) : Opens part.toList := by
  rcases isPart with ⟨n, rfl⟩ | ⟨distance, rfl⟩
  · exact opens_nat n
  · exact ⟨_, _, toList_zone distance, by decide⟩

theorem secondParts_injective {m m' : Moment} (same : secondParts m = secondParts m') :
    m.second = m'.second ∧ m.microsecond = m'.microsecond := by
  simp only [secondParts, bne_iff_ne] at same
  split_ifs at same <;> simp only [List.cons.injEq, toString_inj, reduceCtorEq, and_true, and_false] at same <;> omega

theorem zone_injective {distance distance' : Int}
    (same : "tzinfo=" ++ displayOffset distance = "tzinfo=" ++ displayOffset distance') :
    distance = distance' := by
  have forms := congrArg String.toList same
  rw [toList_zone, toList_zone] at forms
  have zones := List.append_cancel_left (List.cons.inj forms).2
  exact zoneText_front (congrArg (· ++ []) zones)

theorem zoneParts_injective {m m' : Moment} (same : zoneParts m = zoneParts m') : m.offset = m'.offset := by
  unfold zoneParts at same
  cases known : m.offset with
  | none =>
    cases known' : m'.offset with
    | none => rfl
    | some distance' => simp [known, known'] at same
  | some distance =>
    cases known' : m'.offset with
    | none => simp [known, known'] at same
    | some distance' =>
      rw [known, known'] at same
      exact congrArg some (zone_injective (List.cons.inj same).1)

/-- Numbers and zones are told from each other, so it is clear where the zone begins. -/
theorem split_parts {m m' : Moment}
    (same : secondParts m ++ zoneParts m = secondParts m' ++ zoneParts m') :
    secondParts m = secondParts m' ∧ zoneParts m = zoneParts m' := by
  have number (m : Moment) : ∀ part ∈ secondParts m, (part.toList.head? == some 't') = false := by
    intro part member
    obtain ⟨n, rfl⟩ := exists_number_of_mem_secondParts member
    obtain ⟨c, rest, figures, digit⟩ := exists_digit n
    have other : c ≠ 't' := by
      rintro rfl
      cases digit
    rw [figures]
    simp [other]
  have zone (m : Moment) : ∀ part ∈ zoneParts m, (part.toList.head? == some 't') = true := by
    intro part member
    obtain ⟨distance, rfl⟩ := exists_zone_of_mem_zoneParts member
    rw [toList_zone]
    rfl
  have zones (m : Moment) :
      (secondParts m ++ zoneParts m).filter (·.toList.head? == some 't') = zoneParts m := by
    rw [List.filter_append, List.filter_eq_nil_iff.mpr (by simpa using number m),
      List.filter_eq_self.mpr (zone m), List.nil_append]
  have equal : zoneParts m = zoneParts m' := by rw [← zones m, same, zones m']
  exact ⟨List.append_cancel_right (equal ▸ same), equal⟩

theorem moment_front {m m' : Moment} {rest rest' : List Char}
    (same : (Scalar.moment m).display ++ rest = (Scalar.moment m').display ++ rest') : m = m' := by
  have found := callText_front (fun part member other member' =>
    told_of_isMomentPart (isMomentPart_of_mem member) (isMomentPart_of_mem member'))
    (fun part member => opens_of_isMomentPart (isMomentPart_of_mem member))
    (fun part member => opens_of_isMomentPart (isMomentPart_of_mem member)) same
  simp only [momentParts_eq, List.cons_append, List.nil_append, List.cons.injEq, toString_inj] at found
  obtain ⟨year, month, day, hour, minute, rest⟩ := found
  obtain ⟨seconds, zones⟩ := split_parts rest
  obtain ⟨second, microsecond⟩ := secondParts_injective seconds
  have offset := zoneParts_injective zones
  rcases m with ⟨⟨_, _, _⟩, _, _, _, _, _⟩
  rcases m' with ⟨⟨_, _, _⟩, _, _, _, _, _⟩
  simp only at year month day hour minute second microsecond offset
  rw [year, month, day, hour, minute, second, microsecond, offset]

end moments

end Scalar

namespace Value

/-- The kinds of displayed forms that a first character tells from each other. -/
inductive Family
  | word
  | number
  | quoted
  | bytes
  | time
  | list
  deriving DecidableEq

def Family.ofHead (c : Char) : Family :=
  if c ∈ ['N', 'T', 'F'] then .word
  else if c ∈ ['\'', '"'] then .quoted
  else if c = 'b' then .bytes
  else if c = 'd' then .time
  else if c = '[' then .list
  else .number

def scalarFamily : Scalar → Family
  | .null => .word
  | .bool _ => .word
  | .int _ => .number
  | .float _ => .number
  | .str _ => .quoted
  | .bytes _ => .bytes
  | .date _ => .time
  | .moment _ => .time

theorem ofHead_of_isFigure {c : Char} (figure : Binary64.IsFigure c) : Family.ofHead c = .number := by
  have other : c ∉ ['N', 'T', 'F', '\'', '"', 'b', 'd', '['] := by
    intro member
    have known : ∀ c ∈ ['N', 'T', 'F', '\'', '"', 'b', 'd', '['], c.isDigit = false ∧
        c ∉ ['.', 'e', '+', '-', 'i', 'n', 'f', 'a'] := by simp
    rcases figure with digit | mark
    · rw [(known c member).1] at digit
      cases digit
    · exact (known c member).2 mark
  simp only [List.mem_cons, List.not_mem_nil, or_false, not_or] at other
  simp [Family.ofHead, other]

theorem exists_head {text : List Char} {test : Char → Prop} (filled : text ≠ []) (all : ∀ c ∈ text, test c) :
    ∃ c rest, text = c :: rest ∧ test c := by
  obtain ⟨c, rest, rfl⟩ := List.exists_cons_of_ne_nil filled
  exact ⟨c, rest, rfl, all c List.mem_cons_self⟩

theorem isFigure_int (n : Int) : ∀ c ∈ (toString n).toList, Binary64.IsFigure c := by
  intro c member
  rcases mem_toString_int member with rfl | digit
  · exact .inr (by decide)
  · exact .inl digit

/-- The first character of a displayed scalar tells what family it is of. -/
theorem ofHead_display (value : Scalar) :
    ∃ c rest, value.display = c :: rest ∧ Family.ofHead c = scalarFamily value := by
  cases value with
  | null => exact ⟨_, _, rfl, rfl⟩
  | bool value => cases value <;> exact ⟨_, _, rfl, rfl⟩
  | int n =>
    obtain ⟨c, rest, same, figure⟩ := exists_head (toString_int_ne_nil n) (isFigure_int n)
    exact ⟨c, rest, same, ofHead_of_isFigure figure⟩
  | float x =>
    have numeral := Binary64.numeral_text x
    obtain ⟨c, rest, same, figure⟩ := exists_head numeral.ne_nil numeral.figures
    exact ⟨c, rest, same, ofHead_of_isFigure figure⟩
  | str text =>
    refine ⟨_, _, rfl, ?_⟩
    rcases quoteMark_cases (text.letters.map Letter.shown) with mark | mark <;> rw [mark] <;> rfl
  | bytes bytes => exact ⟨_, _, rfl, rfl⟩
  | date date => exact ⟨_, _, rfl, rfl⟩
  | moment moment => exact ⟨_, _, rfl, rfl⟩

/-- Scalars that are displayed alike: one scalar, or two numbers with one text. -/
def Spelt (a b : Scalar) : Prop :=
  a = b ∨ ∃ x y, a = .float x ∧ b = .float y ∧ x.text = y.text

section spelt

variable {a b : Scalar} {rest rest' : List Char}

theorem spelt_of_word (word : scalarFamily a = .word) (word' : scalarFamily b = .word) (bounded : Bounded rest)
    (bounded' : Bounded rest') (same : a.display ++ rest = b.display ++ rest') : Spelt a b := by
  have cases_word {a : Scalar} (word : scalarFamily a = .word) : a ∈ [.null, .bool true, .bool false] := by
    cases a with
    | null => decide
    | bool value => cases value <;> decide
    | _ => cases word
  have plain : ∀ a ∈ [.null, .bool true, .bool false], Plain (Scalar.display a) := by
    have free : ∀ a ∈ [.null, .bool true, .bool false],
        (Scalar.display a).all (fun c => !stops.contains c) = true := by decide
    exact fun a word => by simpa [Plain] using free a word
  have decided : ∀ a ∈ [.null, .bool true, .bool false], ∀ b ∈ [.null, .bool true, .bool false],
      Scalar.display a = Scalar.display b → a = b := by decide
  have equal := (plain a (cases_word word)).told (plain b (cases_word word')) rest rest' bounded bounded' same
  exact .inl (decided a (cases_word word) b (cases_word word') equal)

theorem spelt_of_number (number : scalarFamily a = .number) (number' : scalarFamily b = .number)
    (bounded : Bounded rest) (bounded' : Bounded rest') (same : a.display ++ rest = b.display ++ rest') :
    Spelt a b := by
  have plain {a : Scalar} (number : scalarFamily a = .number) : Plain a.display := by
    cases a with
    | int n => exact plain_int n
    | float x => exact (Binary64.numeral_text x).plain
    | _ => cases number
  have equal := (plain number).told (plain number') rest rest' bounded bounded' same
  cases a with
  | int m =>
    cases b with
    | int n => exact .inl (congrArg Scalar.int (toString_int_injective equal))
    | float y => exact absurd equal.symm ((Binary64.numeral_text y).ne_toString m)
    | _ => cases number'
  | float x =>
    cases b with
    | int n => exact absurd equal ((Binary64.numeral_text x).ne_toString n)
    | float y => exact .inr ⟨x, y, rfl, rfl, String.toList_inj.mp equal⟩
    | _ => cases number'
  | _ => cases number

theorem eq_of_time (time : scalarFamily a = .time) (time' : scalarFamily b = .time)
    (same : a.display ++ rest = b.display ++ rest') : a = b := by
  have apart (date : Date) (moment : Moment) (rest rest' : List Char) :
      (Scalar.date date).display ++ rest ≠ (Scalar.moment moment).display ++ rest' := by
    intro same
    have letter := congrArg (·[13]?) same
    simp [Scalar.display, Scalar.callText] at letter
  cases a with
  | date date =>
    cases b with
    | date date' => exact congrArg Scalar.date (Scalar.date_front same)
    | moment moment => exact absurd same (apart _ _ _ _)
    | _ => cases time'
  | moment moment =>
    cases b with
    | date date => exact absurd same.symm (apart _ _ _ _)
    | moment moment' => exact congrArg Scalar.moment (Scalar.moment_front same)
    | _ => cases time'
  | _ => cases time

/-- Wherever displayed scalars stand, it is clear what they are, but for numbers with one text. -/
theorem spelt_of_front (bounded : Bounded rest) (bounded' : Bounded rest')
    (same : a.display ++ rest = b.display ++ rest') : Spelt a b := by
  by_cases families : scalarFamily a = scalarFamily b
  · cases family : scalarFamily a with
    | word => exact spelt_of_word family (families ▸ family) bounded bounded' same
    | number => exact spelt_of_number family (families ▸ family) bounded bounded' same
    | time => exact .inl (eq_of_time family (families ▸ family) same)
    | quoted =>
      cases a with
      | str text =>
        cases b with
        | str text' => exact .inl (congrArg Scalar.str (quote_front same))
        | _ => cases families
      | _ => cases family
    | bytes =>
      cases a with
      | bytes bytes =>
        cases b with
        | bytes bytes' => exact .inl (congrArg Scalar.bytes (quoteBytes_front same))
        | _ => cases families
      | _ => cases family
    | list => cases a <;> cases family
  · obtain ⟨c, tail, form, head⟩ := ofHead_display a
    obtain ⟨d, tail', form', head'⟩ := ofHead_display b
    rw [form, form'] at same
    exact absurd (head.symm.trans ((congrArg _ (List.cons.inj same).1).trans head')) families

end spelt

/-- Two values of which it is clear, wherever their displayed forms stand, that they have one form or two;
and one form goes with one canonical text. -/
def Shown (value other : Value) : Prop :=
  ∀ rest rest', Bounded rest → Bounded rest' → value.display ++ rest = other.display ++ rest' →
    value.display = other.display ∧ value.canonical = other.canonical

variable {value other : Value}

theorem shown_scalar (a b : Scalar) : Shown (.scalar a) (.scalar b) := by
  intro rest rest' bounded bounded' same
  rcases spelt_of_front bounded bounded' same with rfl | ⟨x, y, rfl, rfl, texts⟩
  · exact ⟨rfl, rfl⟩
  · have written := Binary64.canonicalFloat_eq_of_text texts
    exact ⟨congrArg String.toList texts, by simp only [canonical, canonicalScalar, written]⟩

/-- Scalars, and lists of them at any depth. -/
inductive Flat : Value → Prop
  | scalar (value : Scalar) : Flat (.scalar value)
  | list {items : List Value} (parts : ∀ item ∈ items, Flat item) : Flat (.seq .list items)

theorem displayAll_eq (values : List Value) : displayAll values = values.map display := by
  induction values with
  | nil => rfl
  | cons value values ih => rw [displayAll, ih, List.map_cons]

theorem displayEntries_eq (entries : List (Value × Value)) :
    displayEntries entries = entries.map fun entry => entry.1.display ++ ':' :: ' ' :: entry.2.display := by
  induction entries with
  | nil => rfl
  | cons entry entries ih => rw [displayEntries, ih, List.map_cons]

theorem displaySlots_eq (slots : List (Slot Value)) :
    displaySlots slots = slots.map fun slot => slot.name.shown.toList ++ '=' :: slot.value.display := by
  induction slots with
  | nil => rfl
  | cons slot slots ih => rw [displaySlots, ih, List.map_cons]

theorem opens_display_scalar (value : Scalar) : Opens value.display := by
  have word (c : Char) (rest : List Char) (other : c ∉ stops) : Opens (c :: rest) := ⟨c, rest, rfl, other⟩
  cases value with
  | null => exact word _ _ (by decide)
  | bool value => cases value <;> exact word _ _ (by decide)
  | int n => exact (plain_int n).opens (toString_int_ne_nil n)
  | float x => exact (Binary64.numeral_text x).plain.opens (Binary64.numeral_text x).ne_nil
  | str text =>
    refine word _ _ ?_
    rcases quoteMark_cases (text.letters.map Letter.shown) with mark | mark <;> rw [mark] <;> decide
  | bytes bytes => exact word _ _ (by decide)
  | date date => exact word _ _ (by decide)
  | moment moment => exact word _ _ (by decide)

theorem Flat.opens (flat : Flat value) : Opens value.display := by
  cases flat with
  | scalar value => exact opens_display_scalar value
  | list parts => exact ⟨_, _, rfl, by decide⟩

/-- A scalar does not begin like a list. -/
theorem display_scalar_ne_list (a : Scalar) (items : List Value) (rest rest' : List Char) :
    (Value.scalar a).display ++ rest ≠ (Value.seq .list items).display ++ rest' := by
  intro same
  obtain ⟨c, tail, form, head⟩ := ofHead_display a
  change a.display ++ rest = _ at same
  rw [form] at same
  obtain rfl : c = '[' := (List.cons.inj same).1
  cases a <;> cases head

theorem display_list (items : List Value) (rest : List Char) : (Value.seq .list items).display ++ rest =
    '[' :: ([',', ' '].intercalate (items.map display) ++ ']' :: rest) := by
  change enclose ['['] [']'] (displayAll items) ++ rest = _
  rw [displayAll_eq]
  simp only [enclose, List.append_assoc, List.cons_append, List.nil_append]
  rfl

theorem displays_of_list {items others : List Value} (flat : ∀ item ∈ items, Flat item)
    (flat' : ∀ item ∈ others, Flat item) (shown : ∀ item ∈ items, ∀ other ∈ others, Shown item other)
    {rest rest' : List Char} (same : (Value.seq .list items).display ++ rest =
      (Value.seq .list others).display ++ rest') : items.map display = others.map display := by
  rw [display_list, display_list] at same
  have told : ∀ part ∈ items.map display, ∀ other ∈ others.map display, Told part other := by
    simp only [List.forall_mem_map]
    exact fun item member other member' rest rest' bounded bounded' same =>
      (shown item member other member' rest rest' bounded bounded' same).1
  exact (group_injective (by decide) (by decide) told
    (List.forall_mem_map.mpr fun item member => (flat item member).opens)
    (List.forall_mem_map.mpr fun item member => (flat' item member).opens) (List.cons.inj same).2).1

theorem Flat.shown_list {items others : List Value} (flat : ∀ item ∈ items, Flat item)
    (flat' : ∀ item ∈ others, Flat item) (shown : ∀ item ∈ items, ∀ other ∈ others, Shown item other) :
    Shown (.seq .list items) (.seq .list others) := by
  intro rest rest' _ _ same
  have displays := displays_of_list flat flat' shown same
  have beside := forall₂_of_map_eq displays
  have texts : items.map canonical = others.map canonical := by
    refine map_eq_of_forall₂ (forall₂_of_zip beside.length_eq fun pair member => ?_)
    have equal := forall_zip_of_forall₂ beside pair member
    exact (shown pair.1 (List.of_mem_zip member).1 pair.2 (List.of_mem_zip member).2 [] []
      bounded_nil bounded_nil (congrArg (· ++ []) equal)).2
  have forms : (Value.seq .list items).display = (Value.seq .list others).display := by
    change enclose _ _ (displayAll items) = enclose _ _ (displayAll others)
    rw [displayAll_eq, displayAll_eq, displays]
  exact ⟨forms, canonical_seq_congr texts⟩

/-- Flat values with one displayed form have one canonical text. -/
theorem Flat.shown (flat : Flat value) (flat' : Flat other) : Shown value other := by
  induction flat generalizing other with
  | scalar a =>
    cases flat' with
    | scalar b => exact shown_scalar a b
    | list parts => exact fun rest rest' _ _ same => absurd same (display_scalar_ne_list a _ rest rest')
  | list parts ih =>
    cases flat' with
    | scalar b => exact fun rest rest' _ _ same => absurd same.symm (display_scalar_ne_list b _ rest' rest)
    | list parts' =>
      exact Flat.shown_list parts parts' fun item member other member' =>
        ih item member (parts' other member')

/-- The members of a set are such as may be members. -/
def Frozen : Value → Prop
  | .set _ members => ∀ member ∈ members, member.hashable = true
  | _ => True

instance : DecidablePred Frozen
  | .set _ members => inferInstanceAs (Decidable (∀ member ∈ members, member.hashable = true))
  | .scalar _ => .isTrue trivial
  | .member _ _ _ => .isTrue trivial
  | .seq _ _ => .isTrue trivial
  | .dict _ _ => .isTrue trivial
  | .document _ _ => .isTrue trivial

/-- What may be a member of a set is a list of scalars, at any depth, once it is plain. -/
theorem flat_of_hashable (hashable : value.hashable = true) (frozen : ∀ part, Occurs part value → part.Frozen) :
    Flat value.toPlain := by
  induction value with
  | scalar value => exact .scalar value
  | member enumeration name value => exact .scalar (.str name)
  | seq kind items ih =>
    cases kind with
    | tuple =>
      rw [forall_occurs_seq] at frozen
      rw [toPlain, plainAll_eq]
      exact .list (List.forall_mem_map.mpr fun item member =>
        ih item member (allHashable_iff.mp hashable item member) (frozen.2 item member))
    | _ => cases hashable
  | set kind members ih =>
    rw [forall_occurs_set] at frozen
    rw [toPlain, plainAll_eq]
    refine .list fun item listed => ?_
    obtain ⟨member, own, rfl⟩ := List.mem_map.mp ((perm_sortByDisplay _).mem_iff.mp listed)
    exact ih member own (frozen.1 member own) (frozen.2 member own)
  | dict => cases hashable
  | document => cases hashable

end Value

end LayeredConfig
