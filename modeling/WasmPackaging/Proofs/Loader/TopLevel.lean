import WasmPackaging.Proofs.Loader.DeclaredName
import WasmPackaging.Proofs.Text.Lines

/-!
Which names a module of unindented statements is taken to declare. A statement declares a name as the name
of a function or class, or as that of one of its variables. Main fact: a module is taken to declare a name
exactly when a declaration of it is in sight of its keyword, when a name behind a comma within a declarator
is, or when a line runs the word `function` and the name into one (`declaresTopLevel_iff`). In sight means
that neither a semicolon nor a line feed stands between the first declarator and the comma.
-/

namespace WasmPackaging.Loader

open Text

variable {name : List Char}

theorem stops_append {test : Char → Bool} {a b : List Char} (filled : a ≠ []) (stop : Stops test a) : Stops test (a ++ b) := by
  obtain ⟨c, a, rfl⟩ := List.exists_cons_of_ne_nil filled
  simpa using stop

/-! ## Declarators -/

/-- A declarator: the blanks before it, and its text from the name to the comma or the end behind it. -/
structure Declarator where
  gap : List Char
  body : List Char

/-- Declarators with commas between them. -/
def listText (list : List Declarator) : List Char := joinWith [','] (list.map fun declarator => declarator.gap ++ declarator.body)

/-- A declarator is a text between blanks, and ends with no comma. -/
structure Declarator.Formed (declarator : Declarator) : Prop where
  blank : declarator.gap.all isBlank = true
  filled : declarator.body ≠ []
  start : Stops isBlank declarator.body
  finished : (trimEnd declarator.body).getLast? ≠ some ','

/-- No semicolon and no line feed stand in a text. -/
abbrev Flat (s : List Char) : Prop := s.all isDeclaratorChar = true

/-- One of the declarators has a name that is in sight of the first. -/
def NamesInSight (name : List Char) (list : List Declarator) : Prop :=
  ∃ before declarator after, list = before ++ declarator :: after ∧ Named name declarator.body ∧ Flat (listText before)

/-- Within one of the declarators a name stands behind a comma, in sight of the first. -/
def UsesInSight (name : List Char) (list : List Declarator) : Prop :=
  ∃ before declarator after x gap rest, list = before ++ declarator :: after ∧
    declarator.body = x ++ ',' :: (gap ++ rest) ∧ gap.all isBlank = true ∧ Named name rest ∧
    Flat (listText (before ++ [⟨declarator.gap, x⟩]))

@[simp] theorem listText_singleton (declarator : Declarator) : listText [declarator] = declarator.gap ++ declarator.body := rfl

theorem listText_cons {declarator : Declarator} {list : List Declarator} (some_ : list ≠ []) :
    listText (declarator :: list) = declarator.gap ++ declarator.body ++ ',' :: listText list := by
  cases list with
  | nil => exact absurd rfl some_
  | cons other list => simp [listText, joinWith]

theorem listText_append {list more : List Declarator} (some_ : list ≠ []) (more_ : more ≠ []) :
    listText (list ++ more) = listText list ++ ',' :: listText more := by
  induction list with
  | nil => exact absurd rfl some_
  | cons declarator list ih =>
    by_cases last : list = []
    · subst last
      exact listText_cons more_
    · rw [List.cons_append, listText_cons (by simp [last]), ih last, listText_cons last]
      simp

/-- Behind the last declarator of a list, and behind its comma otherwise, no name goes on. -/
theorem exists_listText_cons (declarator : Declarator) (list : List Declarator) (tail : List Char)
    (stop : Stops isNameChar tail) :
    ∃ behind, Stops isNameChar behind ∧ listText (declarator :: list) ++ tail = declarator.gap ++ (declarator.body ++ behind) := by
  by_cases last : list = []
  · subst last
    exact ⟨tail, stop, by simp⟩
  · exact ⟨',' :: (listText list ++ tail), stops_cons.2 (by decide), by simp [listText_cons last]⟩

/-- A name at the front of a declarator is the name of the declarator. -/
theorem named_of_append {body behind : List Char} (named : Named name (body ++ behind)) (valid : isName name = true)
    (stop : Stops isNameChar behind) : Named name body := by
  obtain ⟨rest, whole, ends⟩ := named
  rcases List.append_eq_append_iff.1 whole with ⟨w, split, behind_⟩ | ⟨w, split, rest_⟩
  · -- the name would go on behind the declarator
    have inside : w = [] := by
      cases w with
      | nil => rfl
      | cons c w =>
        rw [behind_, List.cons_append, stops_cons] at stop
        have letter := List.all_eq_true.1 (isName_iff.1 valid).2 c (by simp [split])
        rw [stop] at letter
        cases letter
    subst inside
    exact ⟨[], by simpa using split.symm, stops_nil _⟩
  · refine ⟨w, split, ?_⟩
    cases w with
    | nil => exact stops_nil _
    | cons c w => simpa [rest_] using ends

theorem Named.append {body behind : List Char} (named : Named name body) (stop : Stops isNameChar behind) :
    Named name (body ++ behind) := by
  obtain ⟨rest, rfl, ends⟩ := named
  refine ⟨rest ++ behind, by simp, ?_⟩
  cases rest with
  | nil => exact stop
  | cons c rest => simpa using ends

/-- A comma within a declarator, and a name behind it: the name stands within the declarator. -/
theorem exists_of_comma_within {declarator : Declarator} {behind x w gap c : List Char} (formed : declarator.Formed)
    (valid : isName name = true) (stop : Stops isNameChar behind) (body : declarator.body = x ++ ',' :: w)
    (rest : w ++ behind = gap ++ c) (blank : gap.all isBlank = true) (named : Named name c) :
    ∃ y, w = gap ++ y ∧ Named name y := by
  have solid : w.all isBlank = false := by
    cases all : w.all isBlank with
    | false => rfl
    | true =>
      refine absurd ?_ formed.finished
      rw [body, trimEnd, List.reverse_append, List.reverse_cons, List.append_assoc, List.singleton_append,
        dropWhile_span (by simpa using all) (stops_cons.2 (by decide))]
      simp
  obtain ⟨front, all, split⟩ := exists_span isBlank w
  have filled : w.dropWhile isBlank ≠ [] := by
    intro none_
    rw [split, none_, List.append_nil, all] at solid
    cases solid
  have start : Stops isBlank (w.dropWhile isBlank ++ behind) := stops_append filled (stops_dropWhile isBlank w)
  rw [split, List.append_assoc] at rest
  obtain ⟨rfl, rfl⟩ := blanks_unique rest all blank start (stops_isBlank_of_startsName (named.startsName valid))
  exact ⟨_, split, named_of_append named valid stop⟩

theorem NamesInSight.cons {first : Declarator} {list : List Declarator} (flat : Flat (first.gap ++ first.body ++ [',']))
    (sight : NamesInSight name list) : NamesInSight name (first :: list) := by
  obtain ⟨before, declarator, after, rfl, named, clear⟩ := sight
  refine ⟨first :: before, declarator, after, rfl, named, ?_⟩
  by_cases front : before = []
  · subst front
    rw [Flat, List.all_append, Bool.and_eq_true] at flat
    exact flat.1
  · rw [listText_cons front, Flat, List.append_cons, List.all_append, Bool.and_eq_true]
    exact ⟨flat, clear⟩

theorem UsesInSight.cons {first : Declarator} {list : List Declarator} (flat : Flat (first.gap ++ first.body ++ [',']))
    (sight : UsesInSight name list) : UsesInSight name (first :: list) := by
  obtain ⟨before, declarator, after, x, gap, rest, rfl, body, blank, named, clear⟩ := sight
  refine ⟨first :: before, declarator, after, x, gap, rest, rfl, body, blank, named, ?_⟩
  rw [List.cons_append, listText_cons (by simp), Flat, List.append_cons, List.all_append, Bool.and_eq_true]
  exact ⟨flat, clear⟩

/-- A name behind a comma that is in sight of the first declarator is that of a later one, or stands within
one. -/
theorem sight_of_comma {list : List Declarator} {tail x gap c : List Char} (some_ : list ≠ [])
    (formed : ∀ declarator ∈ list, declarator.Formed) (valid : isName name = true) (end_ : Stops isDeclaratorChar tail)
    (stop : Stops isNameChar tail) (whole : listText list ++ tail = x ++ ',' :: (gap ++ c)) (flat : Flat x)
    (blank : gap.all isBlank = true) (named : Named name c) : NamesInSight name list ∨ UsesInSight name list := by
  induction list generalizing x with
  | nil => exact absurd rfl some_
  | cons first list ih =>
    obtain ⟨here, later⟩ := List.forall_mem_cons.1 formed
    have noComma : ',' ∉ first.gap := not_mem_of_all here.blank (by decide)
    by_cases last : list = []
    · subst last
      rw [listText_singleton, List.append_assoc] at whole
      obtain ⟨x, rfl, rest⟩ := exists_eq_append_cons_of_not_mem whole noComma
      rcases append_eq_append_cons rest with ⟨w, body, behind⟩ | ⟨w, rfl, behind⟩
      · obtain ⟨y, rfl, inner⟩ := exists_of_comma_within here valid stop body behind.symm blank named
        exact .inr ⟨[], first, [], x, gap, y, rfl, body, blank, inner, flat⟩
      · -- behind the last declarator nothing is in sight
        cases w with
        | nil =>
          rw [behind, List.nil_append, stops_cons] at end_
          exact absurd end_ (by decide)
        | cons d w =>
          rw [behind, List.cons_append, stops_cons] at end_
          have clear := List.all_eq_true.1 flat d (by simp)
          rw [end_] at clear
          cases clear
    · rw [listText_cons last, List.append_assoc, List.append_assoc, List.cons_append] at whole
      obtain ⟨x, rfl, rest⟩ := exists_eq_append_cons_of_not_mem whole noComma
      rcases append_eq_append_cons rest with ⟨w, body, behind⟩ | ⟨w, rfl, behind⟩
      · obtain ⟨y, rfl, inner⟩ := exists_of_comma_within here valid (stops_cons.2 (by decide)) body behind.symm blank named
        exact .inr ⟨[], first, list, x, gap, y, rfl, body, blank, inner, flat⟩
      · cases w with
        | nil =>
          obtain ⟨second, list, rfl⟩ := List.exists_cons_of_ne_nil last
          obtain ⟨more, stop', text⟩ := exists_listText_cons second list tail stop
          have behind : second.gap ++ (second.body ++ more) = gap ++ c := text.symm.trans (List.tail_eq_of_cons_eq behind)
          obtain ⟨formed₂, -⟩ := List.forall_mem_cons.1 later
          obtain ⟨-, rfl⟩ := blanks_unique behind formed₂.blank blank (stops_append formed₂.filled formed₂.start)
            (stops_isBlank_of_startsName (named.startsName valid))
          exact .inl ⟨[first], second, list, rfl, named_of_append named valid stop', by simpa using flat⟩
        | cons d w =>
          obtain ⟨rfl, behind'⟩ := List.cons.inj behind
          have split : Flat (first.gap ++ first.body ++ [',']) ∧ Flat w := by
            have clear : Flat (first.gap ++ first.body ++ [','] ++ w) := by simpa using flat
            rwa [Flat, List.all_append, Bool.and_eq_true] at clear
          exact (ih last later behind' split.2).imp (NamesInSight.cons split.1) (UsesInSight.cons split.1)

/-- Of a list, what follows one of its declarators is no part of a name. -/
theorem exists_listText_append (before : List Declarator) (declarator : Declarator) (after : List Declarator)
    {tail : List Char} (stop : Stops isNameChar tail) :
    ∃ behind, Stops isNameChar behind ∧
      listText (before ++ declarator :: after) ++ tail = listText (before ++ [declarator]) ++ behind := by
  obtain ⟨behind, ends, text⟩ := exists_listText_cons declarator after tail stop
  refine ⟨behind, ends, ?_⟩
  by_cases front : before = []
  · subst front
    simpa using text
  · rw [listText_append front (List.cons_ne_nil _ _), listText_append front (List.cons_ne_nil _ _), List.append_assoc,
      List.cons_append, text]
    simp

theorem listText_body_append (before : List Declarator) (gap x w : List Char) :
    listText (before ++ [⟨gap, x ++ w⟩]) = listText (before ++ [⟨gap, x⟩]) ++ w := by
  by_cases front : before = []
  · simp [front]
  · simp [listText_append front]

theorem UsesInSight.lead {list : List Declarator} {tail : List Char} (sight : UsesInSight name list)
    (stop : Stops isNameChar tail) : ∃ lead c, Leads lead ∧ listText list ++ tail = lead ++ c ∧ Named name c := by
  obtain ⟨before, ⟨gap, _⟩, after, x, blanks, rest, rfl, rfl, blank, named, flat⟩ := sight
  obtain ⟨behind, ends, text⟩ := exists_listText_append before ⟨gap, x ++ ',' :: (blanks ++ rest)⟩ after stop
  refine ⟨_, _, .inr ⟨listText (before ++ [⟨gap, x⟩]), blanks, rfl, flat, blank⟩, ?_, named.append ends⟩
  rw [text, listText_body_append]
  simp

theorem NamesInSight.lead {body tail : List Char} {more : List Declarator} (sight : NamesInSight name (⟨[], body⟩ :: more))
    (formed : ∀ declarator ∈ more, declarator.Formed) (stop : Stops isNameChar tail) :
    ∃ lead c, Leads lead ∧ listText (⟨[], body⟩ :: more) ++ tail = lead ++ c ∧ Named name c := by
  obtain ⟨before, declarator, after, whole, named, flat⟩ := sight
  obtain ⟨behind, ends, text⟩ := exists_listText_cons declarator after tail stop
  rw [whole]
  cases before with
  | nil =>
    obtain ⟨rfl, rfl⟩ := List.cons.inj whole
    exact ⟨[], _, .inl rfl, text, named.append ends⟩
  | cons first before =>
    obtain ⟨rfl, rfl⟩ := List.cons.inj whole
    refine ⟨_, _, .inr ⟨_, declarator.gap, rfl, flat, (formed declarator (by simp)).blank⟩, ?_, named.append ends⟩
    rw [listText_append (List.cons_ne_nil _ _) (List.cons_ne_nil _ _), List.append_assoc, List.cons_append, text]
    simp

/-- What leads to a name may be cut off behind its blanks. -/
theorem Leads.trim {lead c gap t : List Char} (leads : Leads lead) (blank : gap.all isBlank = true)
    (starts : startsName c = true) (stop : Stops isBlank t) (whole : ∃ front, front.all isBlank = true ∧ front ++ (lead ++ c) = gap ++ t) :
    ∃ lead', Leads lead' ∧ t = lead' ++ c := by
  obtain ⟨front, blank', same⟩ := whole
  rcases leads with rfl | ⟨x, gap', rfl, flat, blank''⟩
  · obtain ⟨-, rfl⟩ := blanks_unique same blank' blank (stops_isBlank_of_startsName starts) stop
    exact ⟨[], .inl rfl, rfl⟩
  · obtain ⟨a, y, all, inner, rfl⟩ : ∃ a y, a.all isBlank = true ∧ Stops isBlank y ∧ x = a ++ y :=
      let ⟨a, all, split⟩ := exists_span isBlank x
      ⟨a, _, all, stops_dropWhile isBlank x, split⟩
    have solid : Stops isBlank (y ++ ',' :: (gap' ++ c)) := by
      by_cases none_ : y = []
      · subst none_
        exact stops_cons.2 (by decide)
      · exact stops_append none_ inner
    have cut : (front ++ a) ++ (y ++ ',' :: (gap' ++ c)) = gap ++ t := by
      rw [← same]
      simp
    obtain ⟨-, rfl⟩ := blanks_unique cut (by rw [List.all_append, blank', all]; rfl) blank solid stop
    refine ⟨y ++ ',' :: gap', .inr ⟨_, gap', rfl, ?_, blank''⟩, by simp⟩
    rw [List.all_append, Bool.and_eq_true] at flat
    exact flat.2

theorem isName_of_variableKeyword {keyword : List Char} (listed : keyword ∈ variableKeywords) : isName keyword = true :=
  (show ∀ keyword ∈ variableKeywords, isName keyword = true by decide) keyword listed

/-- A statement of variables is taken to declare the names that are in sight of its keyword. -/
theorem declaresHere_variable_iff {keyword gap body tail : List Char} {more : List Declarator} (valid : isName name = true)
    (listed : keyword ∈ variableKeywords) (filled : gap ≠ []) (blank : gap.all isBlank = true)
    (formed : ∀ declarator ∈ ⟨[], body⟩ :: more, declarator.Formed) (end_ : Stops isDeclaratorChar tail)
    (stop : Stops isNameChar tail) :
    declaresHere name (keyword ++ (gap ++ (listText (⟨[], body⟩ :: more) ++ tail))) = true ↔
      NamesInSight name (⟨[], body⟩ :: more) ∨ UsesInSight name (⟨[], body⟩ :: more) := by
  have other : functionNames (keyword ++ (gap ++ (listText (⟨[], body⟩ :: more) ++ tail))) = [] ∧
      classNames (keyword ++ (gap ++ (listText (⟨[], body⟩ :: more) ++ tail))) = [] := by
    simp only [variableKeywords, List.mem_cons, List.not_mem_nil, or_false] at listed
    rcases listed with rfl | rfl | rfl <;> exact ⟨rfl, rfl⟩
  rw [declaresHere_iff, other.1, other.2]
  simp only [List.not_mem_nil, false_and, exists_false, false_or]
  constructor
  · rintro ⟨c, mem, named⟩
    obtain ⟨keyword', listed', gap', lead, filled', blank', leads, whole⟩ := mem_variableNames_iff.1 mem
    have ends {blanks : List Char} (some_ : blanks ≠ []) (all : blanks.all isBlank = true) (t : List Char) :
        Stops isNameChar (blanks ++ t) := isNameChar_of_marks (.inl all) some_
    obtain rfl : keyword' = keyword := (named_append_iff (isName_of_variableKeyword listed')
      (isName_of_variableKeyword listed) (ends filled blank _)).1 ⟨_, whole, ends filled' blank' _⟩
    obtain ⟨first, later⟩ := List.forall_mem_cons.1 formed
    obtain ⟨behind, ends', text⟩ := exists_listText_cons ⟨[], body⟩ more tail stop
    have start : Stops isBlank (listText (⟨[], body⟩ :: more) ++ tail) := by
      rw [text]
      exact stops_append (b := behind) first.filled first.start
    obtain ⟨lead', leads', cut⟩ := leads.trim blank (named.startsName valid) start
      ⟨gap', blank', (List.append_cancel_left whole).symm⟩
    rcases leads' with rfl | ⟨x, gap₂, rfl, flat, blank₂⟩
    · rw [List.nil_append] at cut
      rw [← cut, text] at named
      exact .inl ⟨[], ⟨[], body⟩, more, rfl, named_of_append named valid ends', rfl⟩
    · exact sight_of_comma (List.cons_ne_nil _ _) formed valid end_ stop (by simpa using cut) flat blank₂ named
  · intro sight
    obtain ⟨lead, c, leads, text, named⟩ := sight.elim
      (fun names => names.lead (List.forall_mem_cons.1 formed).2 stop) fun uses => uses.lead stop
    exact ⟨c, mem_variableNames_iff.2 ⟨keyword, listed, gap, lead, filled, blank, leads, by rw [text]⟩, named⟩

/-! ## Statements -/

/-- An unindented statement: a function with its whole text, a class, some variables with what ends their
statement, or any other statement. -/
inductive Statement where
  | function (name text : List Char)
  | class_ (gap name rest : List Char)
  | bindings (keyword gap : List Char) (list : List Declarator) (tail : List Char)
  | other (text : List Char)

/-- The text of a statement. -/
def Statement.text : Statement → List Char
  | .function _ text => text
  | .class_ gap name rest => "class".toList ++ (gap ++ (name ++ rest))
  | .bindings keyword gap list tail => keyword ++ (gap ++ (listText list ++ tail))
  | .other text => text

/-- Whether a statement starts with the keyword of a declaration. -/
def Statement.declares : Statement → Bool
  | .other _ => false
  | _ => true

/-- The parts of a statement are what they are called. The text of a statement of variables goes on behind
the last declarator with a semicolon or a line feed, if it goes on. -/
def Statement.Formed : Statement → Prop
  | .function name text => isName name = true ∧ FunctionText name text
  | .class_ gap name rest => gap ≠ [] ∧ gap.all isBlank = true ∧ isName name = true ∧ Stops isNameChar rest
  | .bindings keyword gap list tail =>
    keyword ∈ variableKeywords ∧ gap ≠ [] ∧ gap.all isBlank = true ∧ (∃ body more, list = ⟨[], body⟩ :: more) ∧
      (∀ declarator ∈ list, declarator.Formed) ∧ Stops isDeclaratorChar tail
  | .other _ => True

/-- A statement declares a name. -/
def Statement.Declares (name : List Char) : Statement → Prop
  | .function declared _ => name = declared
  | .class_ _ declared _ => name = declared
  | .bindings _ _ list _ => ∃ declarator ∈ list, Named name declarator.body
  | .other _ => False

/-- A statement declares a name in sight of its keyword. -/
def Statement.DeclaresInSight (name : List Char) : Statement → Prop
  | .function declared _ => name = declared
  | .class_ _ declared _ => name = declared
  | .bindings _ _ list _ => NamesInSight name list
  | .other _ => False

/-- A statement of variables has a name behind a comma within a declarator, in sight of its keyword. -/
def Statement.UsesInSight (name : List Char) : Statement → Prop
  | .bindings _ _ list _ => Loader.UsesInSight name list
  | _ => False

/-- Whether a text is the rest of a module behind a statement: nothing, or a line feed first. -/
abbrev EndsLine (s : List Char) : Prop := Stops (· != '\n') s

theorem EndsLine.stops {test : Char → Bool} {s : List Char} (ends : EndsLine s) (newline : test '\n' = false) : Stops test s := by
  cases s with
  | nil => exact stops_nil _
  | cons c s =>
    obtain rfl : c = '\n' := by simpa using ends
    exact stops_cons.2 newline

/-- A statement is taken to declare the names that are in sight of its keyword. -/
theorem Statement.declaresHere_iff {statement : Statement} {behind : List Char} (formed : statement.Formed)
    (declaring : statement.declares = true) (ends : EndsLine behind) (valid : isName name = true) :
    declaresHere name (statement.text ++ behind) = true ↔
      statement.DeclaresInSight name ∨ statement.UsesInSight name := by
  have apart : Stops isNameChar behind := ends.stops (by decide)
  have stops {rest : List Char} (stop : Stops isNameChar rest) : Stops isNameChar (rest ++ behind) := by
    by_cases none_ : rest = []
    · subst none_
      exact apart
    · exact stops_append none_ stop
  cases statement with
  | function declared text =>
    obtain ⟨valid', function⟩ := formed
    cases function with
    | @mk modifier mark rest before between stop =>
      have whole : FunctionText declared _ := .mk before between (stops stop)
      simp only [Statement.text, Statement.DeclaresInSight, Statement.UsesInSight, or_false]
      rw [← declaresHere_function_iff valid valid' whole]
      simp only [List.append_assoc]
  | class_ gap declared rest =>
    obtain ⟨filled, blank, valid', stop⟩ := formed
    simp only [Statement.text, Statement.DeclaresInSight, Statement.UsesInSight, or_false]
    rw [← declaresHere_class_iff valid valid' filled blank (stops stop)]
    simp only [List.append_assoc]
  | bindings keyword gap list tail =>
    obtain ⟨listed, filled, blank, ⟨body, more, rfl⟩, each, end_⟩ := formed
    have end' : Stops isDeclaratorChar (tail ++ behind) := by
      by_cases none_ : tail = []
      · subst none_
        exact ends.stops (by decide)
      · exact stops_append none_ end_
    have stop : Stops isNameChar (tail ++ behind) := by
      refine stops fun c first => ?_
      have mark := end_ c first
      simp only [isDeclaratorChar, Bool.and_eq_false_iff, bne_eq_false_iff_eq] at mark
      rcases mark with rfl | rfl <;> decide
    have same := declaresHere_variable_iff valid listed filled blank each end' stop
    simpa only [Statement.text, Statement.DeclaresInSight, Statement.UsesInSight, List.append_assoc] using same
  | other text => cases declaring

/-! ## Modules -/

/-- A module of statements, each starting a line. -/
def sourceText (statements : List Statement) : List Char := joinWith ['\n'] (statements.map Statement.text)

/-- What follows a statement: the end, or the line feed before the next. -/
def behindStatement : List Statement → List Char
  | [] => []
  | rest => '\n' :: sourceText rest

/-- A statement of a module: no line of it but the first of a declaration starts one. -/
structure Statement.Fits (statement : Statement) (behind : List Char) : Prop where
  formed : statement.Formed
  lines : EveryLine none (fun u v => u = [] ∧ statement.declares = true ∨ ¬ StartsDeclaration (v ++ behind)) statement.text

/-- Each statement of a module fits what follows it. -/
def Unindented : List Statement → Prop
  | [] => True
  | statement :: rest => statement.Fits (behindStatement rest) ∧ Unindented rest

theorem endsLine_behindStatement (rest : List Statement) : EndsLine (behindStatement rest) := by
  cases rest with
  | nil => exact stops_nil _
  | cons statement rest => exact stops_cons.2 (by decide)

/-- The lines of a statement declare no name exactly when none is in sight and none is run into one with the
word `function`. -/
theorem Statement.Fits.everyLine_iff {statement : Statement} {behind : List Char} (fits : statement.Fits behind)
    (ends : EndsLine behind) (valid : isName name = true) :
    EveryLine none (fun _ v => declaresHere name (v ++ behind) = false) statement.text ↔
      ¬ (statement.DeclaresInSight name ∨ statement.UsesInSight name) ∧
        EveryLine none (fun _ v => ¬ Glued name (v ++ behind)) statement.text := by
  constructor
  · intro every
    refine ⟨fun sight => ?_, every.imp fun u v missing glued => ?_⟩
    · have declaring : statement.declares = true := by
        cases statement with
        | other text => exact (sight.elim id id).elim
        | _ => rfl
      have here : declaresHere name (statement.text ++ behind) = false := every [] statement.text rfl rfl
      rw [(Statement.declaresHere_iff fits.formed declaring ends valid).2 sight] at here
      cases here
    · rw [declaresHere_of_glued glued] at missing
      cases missing
  · rintro ⟨blind, apart⟩ u v whole line
    cases answer : declaresHere name (v ++ behind) with
    | false => rfl
    | true =>
      refine absurd ?_ blind
      rcases starts_or_glued_of_declaresHere answer with starts | glued
      · obtain ⟨rfl, declaring⟩ := (fits.lines u v whole line).resolve_right fun no => no starts
        rw [List.nil_append] at whole
        rw [← whole] at answer
        exact (Statement.declaresHere_iff fits.formed declaring ends valid).1 answer
      · exact absurd glued (apart u v whole line)

theorem everyLine_sourceText_iff {statements : List Statement} (unindented : Unindented statements)
    (valid : isName name = true) :
    EveryLine none (fun _ v => declaresHere name v = false) (sourceText statements) ↔
      (∀ statement ∈ statements, ¬ (statement.DeclaresInSight name ∨ statement.UsesInSight name)) ∧
        EveryLine none (fun _ v => ¬ Glued name v) (sourceText statements) := by
  induction statements with
  | nil =>
    have missing : ¬ Glued name [] := by
      rintro ⟨rest, whole, -⟩
      exact absurd whole (by simp [behindAsync, afterWord?, after?])
    have none_ : declaresHere name [] = false := rfl
    rw [sourceText, List.map_nil, joinWith, everyLine_nil, everyLine_nil]
    simp [missing, none_]
  | cons statement rest ih =>
    obtain ⟨fits, later⟩ := unindented
    have here := fits.everyLine_iff (endsLine_behindStatement rest) valid
    cases rest with
    | nil => simpa [sourceText, behindStatement, joinWith] using here
    | cons next rest =>
      have split : sourceText (statement :: next :: rest) = statement.text ++ '\n' :: sourceText (next :: rest) := by
        simp [sourceText, joinWith]
      rw [split, everyLine_append_newline, everyLine_append_newline, List.forall_mem_cons]
      change EveryLine none (fun _ v => declaresHere name (v ++ behindStatement (next :: rest)) = false) _ ∧ _ ↔ _ ∧
        EveryLine none (fun _ v => ¬ Glued name (v ++ behindStatement (next :: rest))) _ ∧ _
      rw [here, ih later]
      exact and_and_and_comm

theorem declaresFrom_eq_false_iff {first : Option Char} {s : List Char} :
    declaresFrom name first s = false ↔ EveryLine first (fun _ v => declaresHere name v = false) s := by
  induction s generalizing first with
  | nil =>
    rw [everyLine_nil, declaresFrom]
    cases atLineStart first <;> simp
  | cons c s ih =>
    rw [everyLine_cons, declaresFrom, ← ih]
    cases atLineStart first <;> simp

/-- A module of unindented statements is taken to declare a name exactly when a declaration of the name is in
sight of its keyword, when the name stands behind a comma within a declarator and in sight, or when a line
starts with the word `function` and the name run into one. -/
theorem declaresTopLevel_iff {statements : List Statement} (unindented : Unindented statements)
    (valid : isName name = true) :
    declaresTopLevel name (sourceText statements) = true ↔
      (∃ statement ∈ statements, statement.DeclaresInSight name) ∨ (∃ statement ∈ statements, statement.UsesInSight name) ∨
        ∃ u v, sourceText statements = u ++ v ∧ atLineStart (charBefore none u) = true ∧ Glued name v := by
  have same := declaresFrom_eq_false_iff.trans (everyLine_sourceText_iff unindented valid)
  rw [← Bool.not_eq_false, declaresTopLevel, same]
  constructor
  · intro found
    refine Classical.byContradiction fun nowhere => found ⟨fun statement mem sight => nowhere ?_, fun u v whole line glued => ?_⟩
    · exact sight.elim (fun names => .inl ⟨statement, mem, names⟩) fun uses => .inr (.inl ⟨statement, mem, uses⟩)
    · exact nowhere (.inr (.inr ⟨u, v, whole, line, glued⟩))
  · rintro (⟨statement, mem, names⟩ | ⟨statement, mem, uses⟩ | ⟨u, v, whole, line, glued⟩) ⟨blind, apart⟩
    · exact blind statement mem (.inl names)
    · exact blind statement mem (.inr uses)
    · exact apart u v whole line glued

/-- Three variables over three lines, a use of a name within an initializer, and a name that starts with the
word `function`. -/
def declaringModule : List Statement :=
  [.bindings "var".toList [' '] [⟨[], ['a']⟩, ⟨"\n  ".toList, ['b']⟩, ⟨"\n  ".toList, "name".toList⟩] [';'],
    .bindings "var".toList [' '] [⟨[], "x = f(a, other)".toList⟩] [';'],
    .other "function__wbg_init = 1;".toList, .other []]

/-- The second of the three variables is in sight of the keyword. -/
theorem declaresTopLevel_second :
    Unindented declaringModule ∧ declaresTopLevel ['b'] (sourceText declaringModule) = true := by
  have unindented : Unindented declaringModule := by
    refine ⟨⟨⟨by decide, by decide, by decide, ⟨_, _, rfl⟩, ?_, by decide⟩, by decide⟩,
      ⟨⟨by decide, by decide, by decide, ⟨_, _, rfl⟩, ?_, by decide⟩, by decide⟩,
      ⟨trivial, by decide⟩, ⟨trivial, by decide⟩, trivial⟩
    · simp only [List.forall_mem_cons]
      exact ⟨⟨by decide, by decide, by decide, by decide⟩, ⟨by decide, by decide, by decide, by decide⟩,
        ⟨by decide, by decide, by decide, by decide⟩, nofun⟩
    · simp only [List.forall_mem_cons]
      exact ⟨⟨by decide, by decide, by decide, by decide⟩, nofun⟩
  refine ⟨unindented, (declaresTopLevel_iff unindented (by decide)).2 (.inl ⟨_, List.mem_cons_self, ?_⟩)⟩
  exact ⟨[⟨[], ['a']⟩], _, _, rfl, ⟨[], rfl, by decide⟩, by decide⟩

/-- The third variable is declared and not taken to be, and neither the name that is used nor the one that is
run into another is declared, but both are taken to be. -/
theorem declaresTopLevel_mistakes :
    ((∃ statement ∈ declaringModule, statement.Declares "name".toList) ∧
        declaresTopLevel "name".toList (sourceText declaringModule) = false) ∧
      ((¬ ∃ statement ∈ declaringModule, statement.Declares "other".toList) ∧
        declaresTopLevel "other".toList (sourceText declaringModule) = true) ∧
      (¬ ∃ statement ∈ declaringModule, statement.Declares "__wbg_init".toList) ∧
        declaresTopLevel "__wbg_init".toList (sourceText declaringModule) = true := by
  refine ⟨⟨⟨_, List.mem_cons_self, ?_⟩, by decide⟩, ⟨?_, by decide⟩, ?_, by decide⟩
  · exact ⟨⟨"\n  ".toList, "name".toList⟩, by simp, by decide⟩
  · simp only [declaringModule, List.mem_cons, List.not_mem_nil, or_false, exists_eq_or_imp, exists_eq_left, Statement.Declares]
    decide
  · simp only [declaringModule, List.mem_cons, List.not_mem_nil, or_false, exists_eq_or_imp, exists_eq_left, Statement.Declares]
    decide

/-! ## Declarations in one line -/

/-- What stands between the first declarator and the end of a statement has neither semicolon nor line feed. -/
def Statement.InOneLine : Statement → Prop
  | .bindings _ _ list _ => Flat (listText list)
  | _ => True

/-- In one line, every declarator is in sight of the keyword. -/
theorem Statement.InOneLine.declaresInSight_iff {statement : Statement} (line : statement.InOneLine) :
    statement.DeclaresInSight name ↔ statement.Declares name := by
  cases statement with
  | bindings keyword gap list tail =>
    constructor
    · rintro ⟨before, declarator, after, rfl, named, -⟩
      exact ⟨declarator, by simp, named⟩
    · rintro ⟨declarator, mem, named⟩
      obtain ⟨before, after, rfl⟩ := List.append_of_mem mem
      refine ⟨before, declarator, after, rfl, named, ?_⟩
      by_cases front : before = []
      · subst front
        rfl
      · change Flat (listText (before ++ declarator :: after)) at line
        rw [listText_append front (List.cons_ne_nil _ _), Flat, List.all_append, Bool.and_eq_true] at line
        exact line.1
  | _ => exact Iff.rfl

/-- With each statement of variables in one line, a name that is neither used behind a comma of such a line
nor run into one with the word `function` is declared exactly when it is taken to be. -/
theorem declaresTopLevel_iff_declares {statements : List Statement} (unindented : Unindented statements)
    (valid : isName name = true) (lines : ∀ statement ∈ statements, statement.InOneLine)
    (unused : ∀ statement ∈ statements, ¬ statement.UsesInSight name)
    (apart : EveryLine none (fun _ v => ¬ Glued name v) (sourceText statements)) :
    declaresTopLevel name (sourceText statements) = true ↔ ∃ statement ∈ statements, statement.Declares name := by
  have same := declaresFrom_eq_false_iff.trans (everyLine_sourceText_iff unindented valid)
  rw [← Bool.not_eq_false, declaresTopLevel, same]
  constructor
  · intro found
    refine Classical.byContradiction fun nowhere => found ⟨fun statement mem sight => ?_, apart⟩
    exact sight.elim (fun names => nowhere ⟨statement, mem, (lines statement mem).declaresInSight_iff.1 names⟩)
      (unused statement mem)
  · rintro ⟨statement, mem, declared⟩ ⟨blind, -⟩
    exact blind statement mem (.inl ((lines statement mem).declaresInSight_iff.2 declared))

end WasmPackaging.Loader
