/-
# How a command line is read

The options in front of a command are read one by one, and what they come to
does not depend on what follows them. Then the command is read from its own
words.

A command without options takes a word for its operand if the word does not
start with a hyphen, or is a negative number. Any other word that holds no
space is taken for an option, and there is none that the command could take.

What is read has been tested: a sequence has no more digits than a number may
have, and where two hyphens are a value, every option that was given has one
that it takes, so that check digits are asked for with an algorithm.

Key definitions: `Word.IsPlain`, `Word.Obeys`, `Gathered.Follows`,
`Invocation.Options`, `Invocation.readFrom`, `Invocation.IsSimple`.
Key theorems: `Word.sort_of_isPlain`, `Word.obeys_of_sort`, `Gathered.Follows.gather`,
`Invocation.exists_readCommand`, `Invocation.natAbs_lt_of_read`,
`Invocation.takesHyphens_of_read`, `Invocation.exists_gathered`,
`Invocation.readFrom_command`, `Invocation.readFrom_of_isPlain`,
`Invocation.readFrom_of_not_isPlain`.
-/
import ChronoId.CommandLine.Invocation
import ChronoId.Proofs.Integer

namespace ChronoId

/-! ### What a word is taken for -/

namespace Word

variable {word : String}

/-- Whether a word is an operand for all commands: it does not start with a
hyphen, or is a negative number. -/
def IsPlain (word : String) : Prop :=
  word.toList.head? = some '-' → isNegativeNumber word.toList = true

instance (word : String) : Decidable (IsPlain word) :=
  inferInstanceAs (Decidable (_ → _))

/-- Behind the hyphen of a negative number stands a digit or a point. -/
theorem isNegativeNumber_eq_false {c : Char} (rest : List Char) (hdigit : isDigit c = false)
    (hpoint : c ≠ '.') : isNegativeNumber ('-' :: c :: rest) = false := by
  unfold isNegativeNumber
  simp only
  generalize hbody :
    (if (c :: rest).getLast? = some '\n' then (c :: rest).dropLast else c :: rest) = body
  -- Without a line feed at its end the body still starts with `c`, or is empty.
  have hcases : body = [] ∨ ∃ tail, body = c :: tail := by
    rw [← hbody]
    split
    · cases rest with
      | nil => exact Or.inl rfl
      | cons d rest => exact Or.inr ⟨_, rfl⟩
    · exact Or.inr ⟨_, rfl⟩
  rcases hcases with rfl | ⟨tail, rfl⟩
  · rfl
  · rw [List.takeWhile_cons_of_neg (by simp [hdigit]), List.length_nil, List.drop_zero]
    split
    · contradiction
    · next hc => exact absurd (List.cons.inj hc).1 hpoint
    · rfl

theorem sortOther_of_isNegativeNumber {w : List Char} (h : isNegativeNumber w = true) :
    sortOther w = .operand (String.ofList w) := by
  simp [sortOther, h]

theorem sortOther_eq_unknown {w : List Char} (h : isNegativeNumber w = false) (hspace : ' ' ∉ w) :
    sortOther w = .unknown := by
  simp [sortOther, h, hspace]

theorem IsPlain.ne_terminator (h : IsPlain word) : word ≠ "--" := by
  rintro rfl
  revert h
  decide

/-- The words that end a command without options. -/
def Halts : Word → Prop
  | .help => True
  | .helpMisused => True
  | .unknown => True
  | _ => False

theorem halts_ofHelp (value? : Option String) : (ofHelp value?).Halts := by
  cases value? <;> exact trivial

theorem halts_sortTail (rest : List Char) : (sortTail rest).Halts := by
  unfold sortTail
  split <;> exact trivial

theorem halts_sortRepeated (rest : List Char) : (sortRepeated rest).Halts := by
  unfold sortRepeated
  split
  · exact trivial
  · split <;> exact trivial
  · split <;> exact trivial

/-- Whether a word is an option of the rules, if it is one. -/
def Obeys (rules : List OptionRule) : Word → Prop
  | .option rule _ => rule ∈ rules
  | _ => True

section Obeys

variable {rules : List OptionRule}

theorem obeys_ofHelp (value? : Option String) : (ofHelp value?).Obeys rules := by
  cases value? <;> exact trivial

theorem obeys_sortOther (w : List Char) : (sortOther w).Obeys rules := by
  unfold sortOther
  split <;> exact trivial

theorem obeys_of_sortLong {w : List Char} {long : Word} (h : sortLong rules w = some long) :
    long.Obeys rules := by
  unfold sortLong at h
  simp only at h
  split at h
  · next hfind =>
    cases h
    exact List.mem_of_find?_eq_some hfind
  · split at h
    · cases h
      exact obeys_ofHelp _
    · split at h
      · cases h
        exact obeys_sortOther _
      · cases h
        exact obeys_ofHelp _
      · next rule hfilter _ =>
        cases h
        have hmem : rule ∈ [rule] := List.mem_singleton_self rule
        rw [← hfilter] at hmem
        exact (List.mem_filter.mp hmem).1
      · cases h

theorem Halts.obeys {w : Word} (h : w.Halts) : w.Obeys rules := by
  cases w with
  | option => exact h.elim
  | _ => exact trivial

end Obeys

variable [Host]

theorem halts_sortShortHelp (rest : List Char) : (sortShortHelp rest).Halts := by
  unfold sortShortHelp
  split
  · exact halts_sortTail rest
  · exact halts_sortRepeated rest

/-- A plain word is an operand, whatever options there are. -/
theorem sort_of_isPlain (h : IsPlain word) (rules : List OptionRule) :
    sort rules word = some (.operand word) := by
  unfold sort
  split
  · next rest hw =>
    have hneg := h (by rw [hw]; rfl)
    rw [hw, isNegativeNumber_eq_false rest (by decide) (by decide)] at hneg
    cases hneg
  · next rest hw =>
    have hneg := h (by rw [hw]; rfl)
    rw [hw, isNegativeNumber_eq_false rest (by decide) (by decide)] at hneg
    cases hneg
  · next c rest _ _ hw =>
    have hneg := h (by rw [hw]; rfl)
    rw [← hw, sortOther_of_isNegativeNumber hneg, String.ofList_toList]
  · rfl

/-- A word that is not plain is no operand of a command without options. -/
theorem sort_nil_of_not_isPlain (h : ¬ IsPlain word) (hspace : ' ' ∉ word.toList)
    (hsize : 2 ≤ word.toList.length) : ∃ w, sort [] word = some w ∧ w.Halts := by
  obtain ⟨hhead, hneg⟩ : word.toList.head? = some '-' ∧ isNegativeNumber word.toList = false := by
    simpa [IsPlain] using h
  have hother : (sortOther word.toList).Halts := by
    rw [sortOther_eq_unknown hneg hspace]
    exact trivial
  unfold sort
  split
  · next rest hw =>
    rw [← hw]
    simp only [sortLong, List.find?_nil, List.filter_nil]
    split
    · exact ⟨_, rfl, halts_ofHelp _⟩
    · cases (splitEquals word.toList).1.isPrefixOf longHelp.toList with
      | false => exact ⟨_, rfl, hother⟩
      | true => exact ⟨_, rfl, halts_ofHelp _⟩
  · exact ⟨_, rfl, halts_sortShortHelp _⟩
  · next hw =>
    rw [← hw]
    exact ⟨_, rfl, hother⟩
  · next hlong _ hshort =>
    -- The word starts with a hyphen and is not the hyphen alone.
    obtain ⟨c, rest, hw⟩ : ∃ c rest, word.toList = '-' :: c :: rest := by
      cases hw : word.toList with
      | nil => rw [hw] at hhead; cases hhead
      | cons d tail =>
        rw [hw] at hhead hsize
        cases tail with
        | nil => exact absurd hsize (by simp)
        | cons c rest => exact ⟨c, rest, by rw [Option.some.inj hhead]⟩
    exact absurd hw (hshort c rest)

theorem sortAll_cons {rules : List OptionRule} {w : Word} {words : List String}
    (hne : word ≠ "--") (h : sort rules word = some w) :
    sortAll rules (word :: words) = (sortAll rules words).map ((word, w) :: ·) := by
  rw [sortAll, if_neg hne, h]
  cases sortAll rules words <;> rfl

theorem sortAll_of_isPlain (h : IsPlain word) (rules : List OptionRule) :
    sortAll rules [word] = some [(word, .operand word)] := by
  rw [sortAll_cons h.ne_terminator (sort_of_isPlain h rules)]
  rfl

theorem map_fst_of_sortAll {rules : List OptionRule} {words : List String}
    {sorted : List (String × Word)} (h : sortAll rules words = some sorted) :
    sorted.map (·.1) = words := by
  induction words generalizing sorted with
  | nil =>
    cases h
    rfl
  | cons word words ih =>
    rw [sortAll] at h
    split at h
    · cases h
      simp [Function.comp_def]
    · obtain ⟨w, -, h⟩ := Option.bind_eq_some_iff.mp h
      obtain ⟨rest, hrest, h⟩ := Option.bind_eq_some_iff.mp h
      cases h
      rw [List.map_cons, ih hrest]

/-- Words are sorted into options of the rules only. -/
theorem obeys_of_sort {rules : List OptionRule} {w : Word} (h : sort rules word = some w) :
    w.Obeys rules := by
  unfold sort at h
  split at h
  · exact obeys_of_sortLong h
  · cases h
    exact (halts_sortShortHelp _).obeys
  · cases h
    exact obeys_sortOther _
  · cases h
    exact trivial

theorem obeys_of_sortAll {rules : List OptionRule} {words : List String}
    {sorted : List (String × Word)} (h : sortAll rules words = some sorted) :
    ∀ w ∈ sorted.map (·.2), w.Obeys rules := by
  induction words generalizing sorted with
  | nil =>
    cases h
    exact nofun
  | cons word words ih =>
    rw [sortAll] at h
    split at h
    · cases h
      simp [Obeys]
    · obtain ⟨w, hw, h⟩ := Option.bind_eq_some_iff.mp h
      obtain ⟨rest, hrest, h⟩ := Option.bind_eq_some_iff.mp h
      cases h
      exact List.forall_mem_cons.mpr ⟨obeys_of_sort hw, ih hrest⟩

end Word

/-! ### What options come to -/

namespace Gathered

/-- Whether every option that was given is one of the rules, with a value that it
takes. -/
def Follows (g : Gathered) (rules : List OptionRule) : Prop :=
  ∀ p ∈ g.options, ∃ rule ∈ rules, rule.name = p.1 ∧
    ∀ test, rule.accepts? = some test → ∃ value, p.2 = some value ∧ test value = true

variable {rules : List OptionRule} {g g' : Gathered}

theorem follows_empty (rules : List OptionRule) : Follows {} rules := List.forall_mem_nil _

theorem Follows.give (hg : g.Follows rules) {rule : OptionRule} (hrule : rule ∈ rules)
    {value? : Option String}
    (hvalue : ∀ test, rule.accepts? = some test → ∃ value, value? = some value ∧ test value = true) :
    (g.give rule value?).Follows rules :=
  List.forall_mem_cons.mpr ⟨⟨rule, hrule, rfl, hvalue⟩, hg⟩

/-- Where two hyphens are a value, no option is left without the one that it
takes. -/
theorem Follows.gather [Host] (hhyphens : Host.takesHyphens = true) {accepts : String → Bool}
    {words : List Word} (hwords : ∀ w ∈ words, w.Obeys rules) (hg : g.Follows rules)
    (h : Word.gather accepts words g = .read g') : g'.Follows rules := by
  have htaken {test : String → Bool} {rule : OptionRule} {value : String}
      (htest : rule.accepts? = some test) (hvalue : test value = true) :
      ∀ test, rule.accepts? = some test → ∃ v, some value = some v ∧ test v = true := by
    intro test' htest'
    cases htest.symm.trans htest'
    exact ⟨value, rfl, hvalue⟩
  fun_induction Word.gather accepts words g with
  | case1 g =>
    cases h
    exact hg
  | case2 text words g _ ih => exact ih (List.forall_mem_cons.mp hwords).2 hg h
  | case3 text g _ _ words ih =>
    exact ih (List.forall_mem_cons.mp (List.forall_mem_cons.mp hwords).2).2 hg h
  | case4 text g _ _ words _ ih => exact ih (List.forall_mem_cons.mp hwords).2 hg h
  | case5 => cases h
  | case6 words g ih => exact ih (List.forall_mem_cons.mp hwords).2 hg h
  | case7 => cases h
  | case8 => cases h
  | case9 words g ih => exact ih (List.forall_mem_cons.mp hwords).2 hg h
  | case10 rule words g hflag ih =>
    obtain ⟨hrule, hwords⟩ := List.forall_mem_cons.mp hwords
    exact ih hwords (hg.give hrule fun test htest => nomatch hflag.symm.trans htest) h
  | case11 => cases h
  | case12 rule words g test value _ hnone =>
    simp [Word.valueBehind, hhyphens] at hnone
  | case13 rule words g test _ htest value _ hvalue ih =>
    obtain ⟨hrule, hwords⟩ := List.forall_mem_cons.mp hwords
    exact ih hwords (hg.give hrule (htaken htest hvalue)) h
  | case14 => cases h
  | case15 rule g test htest value words hvalue ih =>
    obtain ⟨hrule, hwords⟩ := List.forall_mem_cons.mp hwords
    exact ih (List.forall_mem_cons.mp hwords).2 (hg.give hrule (htaken htest hvalue)) h
  | case16 => cases h
  | case17 => cases h

end Gathered

namespace Invocation

variable [Host] {word : String} {words : List String}

/-! ### Commands -/

section Commands

variable {α : Type} {accepts : String → Bool} {build : String → Gathered → Option α}

/-- A command that has been read was built of its operand and its options. -/
theorem exists_of_readWith {rules : List OptionRule} {a : α}
    (h : readWith rules accepts build words = .read a) : ∃ sorted operand g,
      Word.sortAll rules words = some sorted ∧
        Word.gather accepts (sorted.map (·.2)) {} = .read g ∧ build operand g = some a := by
  unfold readWith at h
  split at h
  · cases h
  · next sorted hsorted =>
    split at h
    · cases h
    · cases h
    · next g hgather =>
      split at h
      · cases h
      · split at h
        · next hbuild =>
          cases h
          obtain ⟨operand, -, hbuild⟩ := Option.bind_eq_some_iff.mp hbuild
          exact ⟨sorted, operand, g, hsorted, hgather, hbuild⟩
        · cases h

theorem readWith_of_isPlain (h : Word.IsPlain word) {f : String → α} :
    readWith [] (fun _ => true) (fun operand _ => some (f operand)) [word] = .read (f word) := by
  rw [readWith, Word.sortAll_of_isPlain h]
  rfl

theorem readWith_of_not_isPlain (h : ¬ Word.IsPlain word) (hspace : ' ' ∉ word.toList)
    (hsize : 2 ≤ word.toList.length) :
    readWith [] accepts build [word] = .help ∨ readWith [] accepts build [word] = .misused := by
  unfold readWith
  by_cases hne : word = "--"
  · rw [hne]
    exact Or.inr rfl
  · obtain ⟨w, hw, hhalts⟩ := Word.sort_nil_of_not_isPlain h hspace hsize
    rw [Word.sortAll_cons hne hw]
    cases w with
    | help => exact Or.inl rfl
    | helpMisused => exact Or.inr rfl
    | unknown => exact Or.inr rfl
    | operand => exact hhalts.elim
    | terminator => exact hhalts.elim
    | option => exact hhalts.elim

end Commands

section Read

variable {inv : Invocation} {command : Command}

/-- All that can be read as a command. -/
theorem readCommand_cases {name : String} (h : readCommand name words = .read command) :
    (∃ (operand : String) (i : Int) (timestamp? : Option String),
        Integer.read? operand.toList = some i ∧ command = .encode i timestamp?) ∨
      (∃ id, command = .decode id) ∨ (∃ id, command = .validate id) ∨
      ∃ (payload : String) (alphabet? : Option String) (verify : Bool) (g : Gathered),
        (Host.takesHyphens = true → g.Follows checkDigitRules) ∧
          command = .checkDigit payload
            (((g.value? "--algorithm").getD (some "verhoeff")).bind Algorithm.ofName?) alphabet?
            verify := by
  unfold readCommand at h
  split at h
  · obtain ⟨-, operand, g, -, -, hbuild⟩ := exists_of_readWith h
    obtain ⟨i, hi, rfl⟩ := Option.map_eq_some_iff.mp hbuild
    exact Or.inl ⟨operand, i, _, hi, rfl⟩
  split at h
  · obtain ⟨-, operand, g, -, -, hbuild⟩ := exists_of_readWith h
    cases hbuild
    exact Or.inr (Or.inl ⟨operand, rfl⟩)
  split at h
  · obtain ⟨-, operand, g, -, -, hbuild⟩ := exists_of_readWith h
    cases hbuild
    exact Or.inr (Or.inr (Or.inl ⟨operand, rfl⟩))
  split at h
  · obtain ⟨sorted, operand, g, hsorted, hgather, hbuild⟩ := exists_of_readWith h
    cases hbuild
    refine Or.inr (Or.inr (Or.inr ⟨operand, _, _, g, fun hhyphens => ?_, rfl⟩))
    exact (Gathered.follows_empty _).gather hhyphens (Word.obeys_of_sortAll hsorted) hgather
  · cases h

theorem exists_readCommand_of_readSorted {sorted : List (String × Word)} {g : Gathered}
    (h : readSorted sorted g = .read inv) :
    ∃ name words, readCommand name words = .read inv.command := by
  fun_induction readSorted sorted g with
  | case5 _ name words g command hread =>
    cases h
    exact ⟨name, _, hread⟩
  | case9 _ words g ih => exact ih h
  | case10 _ rule words g value ih => exact ih h
  | case11 _ rule g _ value words ih => exact ih h
  | _ => cases h

/-- What was read has a command that was read. -/
theorem exists_readCommand (h : read words = .read inv) :
    ∃ name arguments, readCommand name arguments = .read inv.command := by
  unfold read at h
  split at h
  · cases h
  · exact exists_readCommand_of_readSorted h

/-- A sequence that was read can be shown. -/
theorem natAbs_lt_of_read {i : Int} {timestamp? : Option String} (h : read words = .read inv)
    (hcommand : inv.command = .encode i timestamp?) : i.natAbs < 10 ^ Integer.maxDigits := by
  obtain ⟨name, arguments, hread⟩ := exists_readCommand h
  rw [hcommand] at hread
  rcases readCommand_cases hread with ⟨operand, j, t, hj, hencode⟩ | ⟨id, hdecode⟩ |
    ⟨id, hvalidate⟩ | ⟨_, _, _, _, -, hcheck⟩
  · cases hencode
    exact Integer.natAbs_lt_of_read? hj
  · cases hdecode
  · cases hvalidate
  · cases hcheck

omit [Host] in
/-- Of the options of check digits, the algorithm is one that there is. -/
theorem isSome_algorithm {g : Gathered} (hg : g.Follows checkDigitRules) :
    (((g.value? "--algorithm").getD (some "verhoeff")).bind Algorithm.ofName?).isSome = true := by
  cases hvalue : g.value? "--algorithm" with
  | none => rfl
  | some value? =>
    obtain ⟨front, back, hoptions, -⟩ := List.lookup_eq_some_iff.mp hvalue
    obtain ⟨rule, hrule, hname, htaken⟩ := hg ("--algorithm", value?) (by simp [hoptions])
    have halgorithm : rule.accepts? = some isAlgorithm := by
      simp only [checkDigitRules, List.mem_cons, List.not_mem_nil, or_false] at hrule
      rcases hrule with rfl | rfl | rfl
      · rfl
      · exact absurd (show "--alphabet" = "--algorithm" from hname) (by decide)
      · exact absurd (show "--verify" = "--algorithm" from hname) (by decide)
    obtain ⟨value, rfl, hknown⟩ := htaken _ halgorithm
    exact hknown

/-- Where two hyphens are a value, an algorithm is not asked for without saying
which. -/
theorem takesHyphens_of_read {payload : String} {alphabet? : Option String} {verify : Bool}
    (h : read words = .read inv) (hcommand : inv.command = .checkDigit payload none alphabet? verify) :
    Host.takesHyphens = false := by
  obtain ⟨name, arguments, hread⟩ := exists_readCommand h
  rw [hcommand] at hread
  rcases readCommand_cases hread with ⟨_, _, _, -, hencode⟩ | ⟨_, hdecode⟩ | ⟨_, hvalidate⟩ |
    ⟨_, _, _, g, hg, hcheck⟩
  · cases hencode
  · cases hdecode
  · cases hvalidate
  · rw [Bool.eq_false_iff]
    intro hhyphens
    have halgorithm := isSome_algorithm (hg hhyphens)
    rw [← (Command.checkDigit.inj hcheck).2.1] at halgorithm
    cases halgorithm

end Read

/-! ### Options in front of a command -/

/-- Options in front of a command, each with its value behind an equals sign or
as a word of its own. -/
inductive Options : List String → Prop
  | nil : Options []
  | joined {word value : String} {rule : OptionRule} {words : List String} :
      Word.sort globalRules word = some (.option rule (some value)) → Options words →
      Options (word :: words)
  | separate {word value : String} {rule : OptionRule} {words : List String} :
      Word.sort globalRules word = some (.option rule none) →
      Word.sort globalRules value = some (.operand value) → Options words →
      Options (word :: value :: words)

/-- Reads the words behind options that have been gathered. -/
def readFrom (g : Gathered) (words : List String) : Reading Invocation :=
  match Word.sortAll globalRules words with
  | none => .misused
  | some sorted => readSorted sorted g

/-- The two hyphens could be either option. -/
theorem ne_terminator_of_sort {w : Word} (h : Word.sort globalRules word = some w) :
    word ≠ "--" := by
  rintro rfl
  cases h

theorem readFrom_joined {g : Gathered} {rule : OptionRule} {value : String}
    (h : Word.sort globalRules word = some (.option rule (some value))) (words : List String) :
    readFrom g (word :: words) = readFrom (g.give rule (Word.valueBehind value)) words := by
  rw [readFrom, Word.sortAll_cons (ne_terminator_of_sort h) h, readFrom]
  cases Word.sortAll globalRules words <;> rfl

theorem readFrom_separate {g : Gathered} {rule : OptionRule} {value text : String}
    (h : Word.sort globalRules word = some (.option rule none))
    (hvalue : Word.sort globalRules value = some (.operand text)) (words : List String) :
    readFrom g (word :: value :: words) = readFrom (g.give rule (some text)) words := by
  rw [readFrom, Word.sortAll_cons (ne_terminator_of_sort h) h,
    Word.sortAll_cons (ne_terminator_of_sort hvalue) hvalue, readFrom]
  cases Word.sortAll globalRules words <;> rfl

theorem exists_readFrom_append {options : List String} (h : Options options) (g : Gathered) :
    ∃ g', g'.stray = g.stray ∧ ∀ words, readFrom g (options ++ words) = readFrom g' words := by
  induction h generalizing g with
  | nil => exact ⟨g, rfl, fun _ => rfl⟩
  | joined hword _ ih =>
    obtain ⟨g', hstray, hread⟩ := ih (g.give _ _)
    refine ⟨g', hstray, fun words => ?_⟩
    rw [List.cons_append, readFrom_joined hword]
    exact hread words
  | separate hword hvalue _ ih =>
    obtain ⟨g', hstray, hread⟩ := ih (g.give _ _)
    refine ⟨g', hstray, fun words => ?_⟩
    rw [List.cons_append, List.cons_append, readFrom_separate hword hvalue]
    exact hread words

/-- What options come to does not depend on the words behind them. -/
theorem exists_gathered {options : List String} (h : Options options) :
    ∃ g, g.stray = false ∧ ∀ words, read (options ++ words) = readFrom g words :=
  exists_readFrom_append h {}

/-- A command is read from its own words, and then a word too much in front of it
is an error. -/
theorem readFrom_command {name : String} (g : Gathered)
    (hname : Word.sort globalRules name = some (.operand name)) (words : List String) :
    readFrom g (name :: words) =
      match Word.sortAll globalRules words with
      | none => .misused
      | some _ =>
        match readCommand name words with
        | .help => .help
        | .misused => .misused
        | .read command =>
          if g.stray then .misused
          else .read ⟨given? g "--settings", given? g "--epoch", command⟩ := by
  rw [readFrom, Word.sortAll_cons (ne_terminator_of_sort hname) hname]
  cases hsorted : Word.sortAll globalRules words with
  | none => rfl
  | some sorted =>
    obtain rfl := Word.map_fst_of_sortAll hsorted
    rfl

theorem readFrom_encode {g : Gathered} (hg : g.stray = false) (words : List String) :
    (readFrom g ("encode" :: words) = .help ∨ readFrom g ("encode" :: words) = .misused) ∨
      ∃ sequence timestamp?, readFrom g ("encode" :: words) =
        .read ⟨given? g "--settings", given? g "--epoch", .encode sequence timestamp?⟩ := by
  rw [readFrom_command g rfl, hg]
  cases Word.sortAll globalRules words with
  | none => exact Or.inl (Or.inr rfl)
  | some sorted =>
    cases hcommand : readCommand "encode" words with
    | help => exact Or.inl (Or.inl rfl)
    | misused => exact Or.inl (Or.inr rfl)
    | read command =>
      obtain ⟨-, operand, g', -, -, hbuild⟩ := exists_of_readWith hcommand
      obtain ⟨i, -, rfl⟩ := Option.map_eq_some_iff.mp hbuild
      exact Or.inr ⟨i, given? g' "--timestamp", rfl⟩

/-! ### Commands with an operand only -/

/-- A command without options, made of its operand. -/
structure IsSimple (name : String) (make : String → Command) : Prop where
  isOperand : Word.sort globalRules name = some (.operand name)
  read_eq : ∀ words, readCommand name words =
    readWith [] (fun _ => true) (fun operand _ => some (make operand)) words

theorem isSimple_decode : IsSimple "decode" .decode := ⟨rfl, fun _ => rfl⟩

theorem isSimple_validate : IsSimple "validate" .validate := ⟨rfl, fun _ => rfl⟩

section Simple

variable {g : Gathered} {name : String} {make : String → Command}

theorem readFrom_of_isPlain (hname : IsSimple name make) (hg : g.stray = false)
    (h : Word.IsPlain word) : readFrom g [name, word] =
      .read ⟨given? g "--settings", given? g "--epoch", make word⟩ := by
  rw [readFrom_command g hname.isOperand, Word.sortAll_of_isPlain h, hname.read_eq,
    readWith_of_isPlain h, hg]
  rfl

/-- A word that is not plain is read as an option, of which there is none. -/
theorem readFrom_of_not_isPlain (hname : IsSimple name make) (hg : g.stray = false)
    (h : ¬ Word.IsPlain word) (hspace : ' ' ∉ word.toList) (hsize : 2 ≤ word.toList.length) :
    readFrom g [name, word] = .help ∨ readFrom g [name, word] = .misused := by
  rw [readFrom_command g hname.isOperand, hg]
  cases Word.sortAll globalRules [word] with
  | none => exact Or.inr rfl
  | some sorted =>
    rw [hname.read_eq]
    rcases readWith_of_not_isPlain h hspace hsize with hread | hread
    · rw [hread]
      exact Or.inl rfl
    · rw [hread]
      exact Or.inr rfl

end Simple

end Invocation
end ChronoId
