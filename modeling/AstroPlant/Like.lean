import Mathlib.Data.List.Basic

/-!
# SQL `LIKE`

In a pattern, `%` stands for any string and `_` for any character, and a
backslash takes the next character of the pattern as it is. A backslash at the
end of the pattern is an error, raised when the match comes to it; a result
`none` is this error.

A pattern without these three characters matches itself and nothing else
(`like_of_plain`), and any other pattern also does something for a string that
it is not (`exists_like_ne_false`).

The match goes through the pattern from the left and tries for a `%` each rest of
the string, as the database does, so a pattern that ends in a backslash is an
error for some strings only: those for which the match gets there.
-/

namespace AstroPlant

namespace Like

inductive Item where
  | char (c : Char)
  | anyChar
  | anyString
  | danglingEscape
deriving DecidableEq

/-- The characters that do not stand for themselves. -/
def isMeta (c : Char) : Bool := c = '%' || c = '_' || c = '\\'

def parse : List Char → List Item
  | [] => []
  | ['\\'] => [.danglingEscape]
  | '\\' :: c :: p => .char c :: parse p
  | '%' :: p => .anyString :: parse p
  | '_' :: p => .anyChar :: parse p
  | c :: p => .char c :: parse p

/-- The first answer other than false for a suffix, from the whole text on. -/
def anySuffix (rest : List Char → Option Bool) : List Char → Option Bool
  | [] => rest []
  | x :: t =>
      match rest (x :: t) with
      | some false => anySuffix rest t
      | r => r

def matchItems : List Item → List Char → Option Bool
  | [], t => some t.isEmpty
  | .anyString :: p, t => anySuffix (matchItems p) t
  | .char c :: p, x :: t => if x = c then matchItems p t else some false
  | .anyChar :: p, _ :: t => matchItems p t
  | .danglingEscape :: _, _ :: _ => none
  | _ :: _, [] => some false

end Like

/-- `text LIKE pattern`. -/
def like (pattern text : List Char) : Option Bool := Like.matchItems (Like.parse pattern) text

namespace Like

/-! ## Plain patterns -/

theorem parse_of_plain {p : List Char} (h : ∀ c ∈ p, isMeta c = false) :
    parse p = p.map .char := by
  induction p with
  | nil => rfl
  | cons c p ih =>
      have hc : ¬(c = '%' ∨ c = '_' ∨ c = '\\') := by
        simpa [isMeta, or_assoc, and_assoc] using h c (List.mem_cons_self ..)
      simp only [not_or] at hc
      have hrest := ih fun c' hc' => h c' (List.mem_cons_of_mem _ hc')
      rw [List.map_cons, ← hrest, parse]
      · exact fun hc' => absurd hc' hc.2.2
      · exact fun _ _ hc' => absurd hc' hc.2.2
      · exact hc.1
      · exact hc.2.1

theorem matchItems_char (p t : List Char) :
    matchItems (p.map .char) t = some (decide (t = p)) := by
  induction p generalizing t with
  | nil => cases t <;> rfl
  | cons c p ih =>
      cases t with
      | nil => rfl
      | cons x t =>
          rw [List.map_cons, matchItems, ih]
          by_cases hx : x = c <;> simp [hx]

/-- **Without special characters, a pattern matches exactly itself.** -/
theorem like_of_plain {p : List Char} (h : ∀ c ∈ p, isMeta c = false) (t : List Char) :
    like p t = some (decide (t = p)) := by
  rw [like, parse_of_plain h, matchItems_char]

/-! ## Other patterns -/

/-- A text that a pattern matches, or for which the match comes to its error:
nothing for any string, and a percent sign for any character. -/
def sample : List Item → List Char
  | [] => []
  | .char c :: p => c :: sample p
  | .anyChar :: p => '%' :: sample p
  | .anyString :: p => sample p
  | .danglingEscape :: p => '%' :: sample p

theorem anySuffix_of_ne_false {rest : List Char → Option Bool} {t : List Char}
    (h : rest t ≠ some false) : anySuffix rest t = rest t := by
  cases t with
  | nil => rfl
  | cons x t =>
      rw [anySuffix]
      split
      · rename_i hr
        exact absurd hr h
      · rfl

theorem matchItems_sample (p : List Item) : matchItems p (sample p) ≠ some false := by
  induction p with
  | nil => simp [sample, matchItems]
  | cons i p ih =>
      cases i with
      | char c => simpa [sample, matchItems] using ih
      | anyChar => exact ih
      | danglingEscape => simp [sample, matchItems]
      | anyString =>
          rw [sample, matchItems, anySuffix_of_ne_false ih]
          exact ih

theorem mem_sample_parse {p : List Char} {c : Char} (h : c ∈ sample (parse p)) :
    c = '%' ∨ c ∈ p := by
  fun_induction parse p with
  | case1 => cases h
  | case2 => exact Or.inl (List.mem_singleton.mp h)
  | case3 c' p ih =>
      rcases List.mem_cons.mp h with rfl | h
      · exact Or.inr (by simp)
      · exact (ih h).imp_right fun hc => by simp [hc]
  | case4 p ih => exact (ih h).imp_right (List.mem_cons_of_mem _)
  | case5 p ih =>
      rcases List.mem_cons.mp h with rfl | h
      · exact Or.inl rfl
      · exact (ih h).imp_right (List.mem_cons_of_mem _)
  | case6 c' p _ _ _ _ ih =>
      rcases List.mem_cons.mp h with rfl | h
      · exact Or.inr (List.mem_cons_self ..)
      · exact (ih h).imp_right (List.mem_cons_of_mem _)

theorem length_sample_parse (p : List Char) : (sample (parse p)).length ≤ p.length := by
  fun_induction parse p with
  | case1 => exact Nat.le_refl 0
  | case2 => exact Nat.le_refl 1
  | case3 c p ih => simp only [sample, List.length_cons]; omega
  | case4 p ih => simp only [sample, List.length_cons]; omega
  | case5 p ih => simp only [sample, List.length_cons]; omega
  | case6 c p _ _ _ _ ih => simp only [sample, List.length_cons]; omega

theorem plain_of_sample_parse {p : List Char} (h : sample (parse p) = p) :
    ∀ c ∈ p, isMeta c = false := by
  fun_induction parse p with
  | case1 => simp
  | case2 => cases h
  | case3 c p ih =>
      have hlen := length_sample_parse p
      rw [sample] at h
      have := congrArg List.length h
      simp only [List.length_cons] at this
      omega
  | case4 p ih =>
      have hlen := length_sample_parse p
      rw [sample] at h
      have := congrArg List.length h
      simp only [List.length_cons] at this
      omega
  | case5 p ih =>
      rw [sample] at h
      cases (List.cons.inj h).1
  | case6 c p hdangling hescape hany hone ih =>
      rw [sample] at h
      intro c' hc'
      rcases List.mem_cons.mp hc' with rfl | hc'
      · have hne : c' ≠ '\\' := by
          cases p with
          | nil => exact fun hc => hdangling hc rfl
          | cons x p => exact fun hc => hescape x p hc rfl
        have hne' : c' ≠ '%' := hany
        have hne'' : c' ≠ '_' := hone
        simp [isMeta, hne, hne', hne'']
      · exact ih (List.cons.inj h).2 c' hc'

/-- **With special characters, a pattern is not confined to itself.** -/
theorem exists_like_ne_false {p : List Char} (h : ∃ c ∈ p, isMeta c = true) :
    ∃ t, t ≠ p ∧ (∀ c ∈ t, c = '%' ∨ c ∈ p) ∧ like p t ≠ some false := by
  refine ⟨sample (parse p), fun heq => ?_, fun c hc => mem_sample_parse hc, matchItems_sample _⟩
  obtain ⟨c, hc, hmeta⟩ := h
  rw [plain_of_sample_parse heq c hc] at hmeta
  cases hmeta

end Like

end AstroPlant
