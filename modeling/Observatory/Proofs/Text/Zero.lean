import Observatory.Token
/-!
# Texts without NUL

The character of code zero ends a text for the system. A token can bring one in two ways: a record
may hold it, and between quotes a backslash with a zero behind it stands for it. A text that does
neither gives only tokens without it.

* `NulFree` — texts that neither hold nor spell it.
* `Token.nul_not_mem_of_next`, `Token.suffix_of_next` — the next token, and what is left behind it.
-/

namespace Observatory

namespace Text

/-- A text that neither holds the character of code zero nor spells it as an escape. -/
structure NulFree (cs : List Char) : Prop where
  held : '\x00' ∉ cs
  spelt : ¬ ['\\', '0'] <:+: cs

theorem NulFree.of_isInfix {a b : List Char} (h : NulFree b) (hab : a <:+: b) : NulFree a :=
  ⟨fun hmem => h.held (hab.subset hmem), fun hspelt => h.spelt (hspelt.trans hab)⟩

theorem NulFree.of_cons {c : Char} {cs : List Char} (h : NulFree (c :: cs)) : NulFree cs :=
  h.of_isInfix (List.suffix_cons c cs).isInfix

/-! ## Trimming -/

theorem suffix_skipBlank (cs : List Char) : skipBlank cs <:+ cs := List.dropWhile_suffix _

theorem prefix_dropTrailing (cs : List Char) : dropTrailing cs <+: cs := by
  have h : (cs.reverse.dropWhile isBlank).reverse <+: cs.reverse.reverse :=
    List.reverse_prefix.2 (List.dropWhile_suffix _)
  rwa [List.reverse_reverse] at h

theorem isInfix_trim (cs : List Char) : trim cs <:+: cs :=
  (prefix_dropTrailing _).isInfix.trans (suffix_skipBlank cs).isInfix

/-! ## Quoted tokens -/

/-- Only a zero behind a backslash stands for the character of code zero, apart from itself. -/
theorem unescape_eq_nul {c : Char} (h : Quoted.unescape c = '\x00') : c = '0' ∨ c = '\x00' := by
  unfold Quoted.unescape at h
  split at h
  · exact absurd h (by decide)
  · exact absurd h (by decide)
  · exact .inl rfl
  · exact .inr h

theorem NulFree.nul_not_mem_of_readFrom {acc cs token rest : List Char} (hcs : NulFree cs)
    (hacc : '\x00' ∉ acc) (h : Quoted.readFrom acc cs = some (token, rest)) : '\x00' ∉ token := by
  fun_induction Quoted.readFrom acc cs with
  | case1 => cases h
  | case2 acc rest' =>
    obtain ⟨rfl, -⟩ := Prod.mk.inj (Option.some.inj h)
    simpa using hacc
  | case3 => cases h
  | case4 acc c rest' ih =>
    refine ih hcs.of_cons.of_cons ?_ h
    rintro hmem
    rcases List.mem_cons.1 hmem with heq | hmem
    · rcases unescape_eq_nul heq.symm with rfl | rfl
      · exact hcs.spelt (List.prefix_append ['\\', '0'] rest').isInfix
      · exact hcs.held (by simp)
    · exact hacc hmem
  | case5 acc c rest' _ _ _ ih =>
    refine ih hcs.of_cons ?_ h
    intro hmem
    rcases List.mem_cons.1 hmem with rfl | hmem
    · exact hcs.held List.mem_cons_self
    · exact hacc hmem

theorem suffix_of_readFrom {acc cs token rest : List Char}
    (h : Quoted.readFrom acc cs = some (token, rest)) : rest <:+ cs := by
  fun_induction Quoted.readFrom acc cs with
  | case1 => cases h
  | case2 acc rest' =>
    obtain ⟨-, rfl⟩ := Prod.mk.inj (Option.some.inj h)
    exact List.suffix_cons _ _
  | case3 => cases h
  | case4 acc c rest' ih =>
    exact (ih h).trans ((List.suffix_cons _ _).trans (List.suffix_cons _ _))
  | case5 acc c rest' _ _ _ ih => exact (ih h).trans (List.suffix_cons _ _)

end Text

namespace Token

open Text

/-! ## Tokens -/

/-- A token stands between quotes, or it is a run of ink. -/
theorem next_cases {cs token rest : List Char} (h : next cs = .ok (token, rest)) :
    (∃ body, '"' :: body <:+ cs ∧ Quoted.read body = some (token, rest)) ∨
      ∃ ds, ds <:+ cs ∧ token = ds.takeWhile isInk ∧ rest = ds.dropWhile isInk := by
  have hskip := suffix_skipBlank cs
  unfold next at h
  generalize skipBlank cs = ds at h hskip
  split at h
  · cases h
  · next body =>
    split at h
    · next read hread =>
      obtain rfl := Except.ok.inj h
      exact .inl ⟨body, hskip, hread⟩
    · cases h
  · obtain ⟨rfl, rfl⟩ := Prod.mk.inj (Except.ok.inj h)
    exact .inr ⟨_, hskip, rfl, rfl⟩

theorem suffix_of_next {cs token rest : List Char} (h : next cs = .ok (token, rest)) :
    rest <:+ cs := by
  rcases next_cases h with ⟨body, hbody, hread⟩ | ⟨ds, hds, -, rfl⟩
  · exact (suffix_of_readFrom hread).trans ((List.suffix_cons _ _).trans hbody)
  · exact (List.dropWhile_suffix _).trans hds

theorem nul_not_mem_of_next {cs token rest : List Char} (hcs : NulFree cs)
    (h : next cs = .ok (token, rest)) : '\x00' ∉ token := by
  rcases next_cases h with ⟨body, hbody, hread⟩ | ⟨ds, hds, rfl, -⟩
  · exact (hcs.of_isInfix hbody.isInfix).of_cons.nul_not_mem_of_readFrom (by simp) hread
  · exact fun hmem => hcs.held (hds.subset (List.takeWhile_subset _ hmem))

end Token

end Observatory
