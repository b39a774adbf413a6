import Observatory.Client.Session
import Observatory.Proofs.Record.RoundTrip
import Observatory.Script
/-!
# Command lines that are typed again

The line of a command may come back as a line of a script or as what a user types, and is then
split at its blanks into an opcode and parameters. Quotes mean nothing there, so a parameter that
was written between quotes comes back torn, or with its quotes as a part of it.

* `Text.flatten_words`, `Text.words_append` — the words of a text.
* `Text.Quoted.StandsBare`, `countP_encodeArgument_lt` — what needs quotes, and that quotes show.
* `Command.sent_on_iff` — a command that is typed again is sent on unchanged exactly when no
  parameter of it needs quotes.
-/

namespace Observatory

/-! ## Words -/

namespace Text

/-- Every character that is no blank is in some word, in its order. -/
theorem flatten_words (cs : List Char) : (words cs).flatten = cs.filter isInk := by
  have hfold : (cs.foldr addChar ([], [])).1 ++ (cs.foldr addChar ([], [])).2.flatten =
      cs.filter isInk := by
    induction cs with
    | nil => rfl
    | cons c cs ih =>
      rw [List.foldr_cons]
      generalize cs.foldr addChar ([], []) = s at ih ⊢
      obtain ⟨word, rest⟩ := s
      by_cases hc : isBlank c = true
      · rw [List.filter_cons_of_neg (by simp [isInk, hc]), ← ih]
        cases word <;> simp [addChar, hc]
      · rw [List.filter_cons_of_pos (by simp [isInk, hc]), ← ih]
        simp [addChar, hc]
  unfold words
  split
  · next rest hs => simpa [hs] using hfold
  · next word rest _ hs => simpa [hs] using hfold

theorem countP_flatten_words (cs : List Char) :
    (words cs).flatten.countP isInk = cs.countP isInk := by
  rw [flatten_words, List.countP_filter]
  simp only [Bool.and_self]

theorem words_space (cs : List Char) : words (' ' :: cs) = words cs := by
  have hblank : isBlank ' ' = true := by decide
  unfold words
  rw [List.foldr_cons]
  generalize cs.foldr addChar ([], []) = s
  obtain ⟨word, rest⟩ := s
  cases word <;> simp [addChar, hblank]

/-- Where a word ends, no character is left that it may still extend. -/
theorem fst_foldr_addChar {rest : List Char} (h : Token.EndsToken rest) :
    (rest.foldr addChar ([], [])).1 = [] := by
  cases rest with
  | nil => rfl
  | cons c cs =>
    have hc : isBlank c = true := h c rfl
    rw [List.foldr_cons]
    generalize cs.foldr addChar ([], []) = s
    obtain ⟨word, rest⟩ := s
    cases word <;> simp [addChar, hc]

theorem foldr_addChar_append {w : List Char} (hink : ∀ c ∈ w, isBlank c = false)
    (s : List Char × List (List Char)) : w.foldr addChar s = (w ++ s.1, s.2) := by
  induction w with
  | nil => rfl
  | cons c w ih =>
    rw [List.foldr_cons, ih fun d hd => hink d (by simp [hd])]
    simp [addChar, hink c (by simp)]

/-- The first word of a text, and those behind it. -/
theorem words_append {w rest : List Char} (hne : w ≠ []) (hink : ∀ c ∈ w, isBlank c = false)
    (hends : Token.EndsToken rest) : words (w ++ rest) = w :: words rest := by
  have hrest : words rest = (rest.foldr addChar ([], [])).2 := by
    unfold words
    split
    · next hs => rw [hs]
    · next word _ hword hs =>
      have hnone := fst_foldr_addChar hends
      rw [hs] at hnone
      exact absurd hnone hword
  have hfold := foldr_addChar_append hink (rest.foldr addChar ([], []))
  rw [fst_foldr_addChar hends, List.append_nil, ← List.foldr_append] at hfold
  rw [hrest, words, hfold]
  split
  · next hs => exact absurd (Prod.mk.inj hs).1 hne
  · next hs =>
    obtain ⟨rfl, rfl⟩ := Prod.mk.inj hs
    rfl

/-! ## Arguments that need quotes -/

namespace Quoted

/-- An argument that is written as it is: it is not empty and holds no blank, quote or backslash. -/
structure StandsBare (s : List Char) : Prop where
  nonempty : s ≠ []
  ink : ∀ c ∈ s, isBlank c = false
  plain : ∀ c ∈ s, c ≠ '"' ∧ c ≠ '\\'

theorem standsBare_iff (s : List Char) : StandsBare s ↔
    (s.isEmpty || s.any fun d => isBlank d || d == '"' || d == '\\') = false := by
  simp only [Bool.or_eq_false_iff, List.isEmpty_eq_false_iff, List.any_eq_false, Bool.or_eq_true,
    beq_iff_eq, not_or, Bool.not_eq_true]
  exact ⟨fun h => ⟨h.nonempty, fun c hc => ⟨⟨h.ink c hc, (h.plain c hc).1⟩, (h.plain c hc).2⟩⟩,
    fun h => ⟨h.1, fun c hc => (h.2 c hc).1.1, fun c hc => ⟨(h.2 c hc).1.2, (h.2 c hc).2⟩⟩⟩

instance (s : List Char) : Decidable (StandsBare s) := decidable_of_iff _ (standsBare_iff s).symm

theorem encodeArgument_of_standsBare {s : List Char} (h : StandsBare s) : encodeArgument s = s := by
  rw [encodeArgument, (standsBare_iff s).1 h, if_neg Bool.false_ne_true]

theorem encodeArgument_of_not_standsBare {s : List Char} (h : ¬ StandsBare s) :
    encodeArgument s = encode s := by
  rw [standsBare_iff, Bool.not_eq_false] at h
  rw [encodeArgument, if_pos h]

theorem countP_encodeChar (c : Char) : [c].countP isInk ≤ (encodeChar c).countP isInk := by
  unfold encodeChar
  split <;> first | decide | exact Nat.le_refl _

/-- The quotes are two more characters to see, whatever stands between them. -/
theorem countP_encode (s : List Char) : s.countP isInk + 2 ≤ (encode s).countP isInk := by
  have hbody : s.countP isInk ≤ (s.flatMap encodeChar).countP isInk := by
    induction s with
    | nil => exact Nat.le_refl _
    | cons c s ih =>
      have hc := countP_encodeChar c
      rw [List.flatMap_cons, List.countP_append, ← List.singleton_append, List.countP_append]
      omega
  have hquote : isInk '"' = true := by decide
  rw [encode, List.countP_cons_of_pos hquote, List.countP_append, List.countP_singleton,
    if_pos hquote]
  omega

theorem countP_encodeArgument (s : List Char) :
    s.countP isInk ≤ (encodeArgument s).countP isInk := by
  by_cases h : StandsBare s
  · exact Nat.le_of_eq (by rw [encodeArgument_of_standsBare h])
  · have hlong := countP_encode s
    rw [encodeArgument_of_not_standsBare h]
    omega

/-- Arguments as they stand behind an opcode. -/
def arguments (params : List (List Char)) : List Char :=
  params.flatMap fun p => ' ' :: encodeArgument p

theorem arguments_cons (p : List Char) (params : List (List Char)) :
    arguments (p :: params) = ' ' :: (encodeArgument p ++ arguments params) := rfl

theorem countP_arguments_cons (p : List Char) (params : List (List Char)) :
    (arguments (p :: params)).countP isInk =
      (encodeArgument p).countP isInk + (arguments params).countP isInk := by
  have hspace : ¬ isInk ' ' = true := by decide
  rw [arguments_cons, List.countP_cons_of_neg hspace, List.countP_append]

/-- Every character to see of some arguments is to be seen where they are written. -/
theorem countP_flatten_le (params : List (List Char)) :
    params.flatten.countP isInk ≤ (arguments params).countP isInk := by
  induction params with
  | nil => exact Nat.le_refl _
  | cons p params ih =>
    have hp := countP_encodeArgument p
    rw [countP_arguments_cons, List.flatten_cons, List.countP_append]
    omega

/-- Where no more is to be seen than that, no argument is between quotes. -/
theorem standsBare_of_countP_le {params : List (List Char)}
    (h : (arguments params).countP isInk ≤ params.flatten.countP isInk) :
    ∀ p ∈ params, StandsBare p := by
  induction params with
  | nil => simp
  | cons p params ih =>
    have hp := countP_encodeArgument p
    have hparams := countP_flatten_le params
    rw [countP_arguments_cons, List.flatten_cons, List.countP_append] at h
    rw [List.forall_mem_cons]
    refine ⟨?_, ih (by omega)⟩
    by_cases hbare : StandsBare p
    · exact hbare
    · have hlong := countP_encode p
      rw [encodeArgument_of_not_standsBare hbare] at h
      omega

theorem endsToken_arguments (params : List (List Char)) : Token.EndsToken (arguments params) := by
  cases params with
  | nil => exact Token.endsToken_nil
  | cons p params => exact Token.endsToken_space _

theorem words_arguments {params : List (List Char)} (h : ∀ p ∈ params, StandsBare p) :
    words (arguments params) = params := by
  induction params with
  | nil => rfl
  | cons p params ih =>
    have hp : StandsBare p := h p List.mem_cons_self
    rw [arguments_cons, words_space, encodeArgument_of_standsBare hp,
      words_append hp.nonempty hp.ink (endsToken_arguments params),
      ih fun q hq => h q (List.mem_cons_of_mem p hq)]

/-- The words of written arguments are the arguments exactly when none of them needs quotes. -/
theorem words_arguments_iff (params : List (List Char)) :
    words (arguments params) = params ↔ ∀ p ∈ params, StandsBare p := by
  refine ⟨fun h => standsBare_of_countP_le ?_, words_arguments⟩
  have hcount := countP_flatten_words (arguments params)
  rw [h] at hcount
  exact Nat.le_of_eq hcount.symm

/-- Written arguments are written alike when their words are taken for the arguments, exactly when
none of them needs quotes: a word that holds a quote is put between two more. -/
theorem arguments_words_iff (params : List (List Char)) :
    arguments (words (arguments params)) = arguments params ↔ ∀ p ∈ params, StandsBare p := by
  constructor
  · intro h p hp
    have hcount := countP_flatten_words (arguments params)
    have hwords : ∀ w ∈ words (arguments params), StandsBare w :=
      standsBare_of_countP_le (Nat.le_of_eq (by rw [h, hcount]))
    by_cases hbare : StandsBare p
    · exact hbare
    · -- its quotes are in one of the words
      have hquote : '"' ∈ arguments params := by
        refine List.mem_flatMap.2 ⟨p, hp, List.mem_cons_of_mem ' ' ?_⟩
        rw [encodeArgument_of_not_standsBare hbare, encode]
        exact List.mem_cons_self
      have hword : '"' ∈ (words (arguments params)).flatten := by
        rw [flatten_words]
        exact List.mem_filter.2 ⟨hquote, by decide⟩
      obtain ⟨w, hw, hmem⟩ := List.mem_flatten.1 hword
      exact absurd rfl ((hwords w hw).plain '"' hmem).1
  · intro h
    rw [words_arguments h]

end Quoted

end Text

/-! ## Commands -/

namespace Command

open Text (words)
open Text.Quoted (StandsBare arguments)

variable {c : Command}

/-- The command that a line is taken for when it is split at its blanks. -/
def retyped (c : Command) : Command :=
  { opcode := c.opcode
    params := (words (arguments (c.params.map String.toList))).map String.ofList }

theorem encode_eq (c : Command) :
    c.encode = c.opcode.toList ++ arguments (c.params.map String.toList) := by
  rw [encode, arguments, List.flatMap_map]

theorem ofLine?_line (hne : c.opcode ≠ "")
    (hink : ∀ ch ∈ c.opcode.toList, Text.isBlank ch = false) : ofLine? c.line = some c.retyped := by
  have hwords := Text.words_append (by simpa using hne) hink
    (Text.Quoted.endsToken_arguments (c.params.map String.toList))
  unfold ofLine?
  rw [line, String.toList_ofList, encode_eq, hwords]
  simp only [String.ofList_toList]
  rfl

theorem map_toList_retyped (c : Command) : c.retyped.params.map String.toList =
    words (arguments (c.params.map String.toList)) := by
  simp [retyped, List.map_map, Function.comp_def, String.toList_ofList]

theorem params_retyped_iff : c.retyped.params = c.params ↔
    ∀ p ∈ c.params, StandsBare p.toList := by
  have hlists := Text.Quoted.words_arguments_iff (c.params.map String.toList)
  rw [List.forall_mem_map] at hlists
  rw [← hlists, ← map_toList_retyped]
  exact (List.map_inj_right fun _ _ => String.toList_inj.1).symm

theorem line_retyped_iff : c.retyped.line = c.line ↔ ∀ p ∈ c.params, StandsBare p.toList := by
  have hlists := Text.Quoted.arguments_words_iff (c.params.map String.toList)
  rw [List.forall_mem_map] at hlists
  rw [← hlists, line, line, String.ofList_inj, encode_eq, encode_eq, map_toList_retyped]
  exact List.append_right_inj c.opcode.toList

/-- **A command line that is typed again**, as a line of a script or by a user, gives a command with
the same opcode, and it gives the same parameters and is sent on unchanged exactly when no parameter
needs quotes. -/
theorem sent_on_iff {τ η : Type} {c : Command} (hne : c.opcode ≠ "")
    (hink : ∀ ch ∈ c.opcode.toList, Text.isBlank ch = false) :
    ∃ typed, ofLine? c.line = some typed ∧ typed.opcode = c.opcode ∧
      (typed.params = c.params ↔ ∀ p ∈ c.params, StandsBare p.toList) ∧
      (typed.line = c.line ↔ ∀ p ∈ c.params, StandsBare p.toList) ∧
      Client.Session.commandFor (.command c.line) = some typed ∧
      ∀ (r : ScriptRunner) (rest : List String), ∃ next,
        (r.sendFirst (c.line :: rest) : Reaction τ η ScriptRunner) =
          .queueTo r.device { typed with origin := some "script" } next := by
  have hline := ofLine?_line hne hink
  refine ⟨c.retyped, hline, rfl, params_retyped_iff, line_retyped_iff, hline, fun r rest => ?_⟩
  unfold ScriptRunner.sendFirst
  rw [hline]
  exact ⟨_, rfl⟩

/-- Parameters that need no quotes. -/
theorem sent_on_of_move : Token.Bare "move".toList ∧
    ∃ typed, ofLine? (line ⟨"move", ["10", "-5"], none, false⟩) = some typed ∧
      typed.params = ["10", "-5"] ∧
      typed.line = line ⟨"move", ["10", "-5"], none, false⟩ := by
  have hbare : Token.Bare "move".toList := by decide
  have hparams : ∀ p ∈ ["10", "-5"], StandsBare p.toList := by decide
  obtain ⟨typed, htyped, -, hsame, hunchanged, -⟩ :=
    @sent_on_iff Unit Unit ⟨"move", ["10", "-5"], none, false⟩ (by decide) hbare.ink
  exact ⟨hbare, typed, htyped, hsame.2 hparams, hunchanged.2 hparams⟩

/-- A parameter with a space in it comes back as two, each with one of the quotes, and these are
quoted in turn when the command is sent on. -/
theorem torn_of_exposure :
    line ⟨"script", ["exposure 10", "-5"], none, false⟩ = "script \"exposure 10\" -5" ∧
      ofLine? "script \"exposure 10\" -5" =
        some ⟨"script", ["\"exposure", "10\"", "-5"], none, false⟩ ∧
      line ⟨"script", ["\"exposure", "10\"", "-5"], none, false⟩ =
        "script \"\\\"exposure\" \"10\\\"\" -5" := ⟨rfl, rfl, rfl⟩

end Command

end Observatory
