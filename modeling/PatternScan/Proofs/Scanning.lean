import Mathlib.Data.List.Induction
import Mathlib.Tactic.SplitIfs
import PatternScan.Pattern.Grammar
import PatternScan.Pattern.Parse

/-!
# The tokens of a text

The texts of the tokens, in a row, are the source, and a plain token is never a character with a
meaning of its own (`Token.scanFrom_spec`). A text that can be scanned is scanned alike whatever
comes after it (`Token.scanFrom_append`). So a text is read as its tokens come, each with the place
of its own text (`Reading.After`).
-/

namespace PatternScan

namespace TokenKind

theorem ofChar_eq_plain {c : Char} (h : ¬ IsMeta c) : ofChar c = .plain c := by
  simp only [IsMeta, List.mem_cons, List.not_mem_nil, or_false, not_or] at h
  simp only [ofChar, h, if_false]

theorem ofChar_symbol (q : Quantifier) : ofChar q.symbol = .quantifier q := by
  cases q <;> rfl

theorem text_ofChar (c : Char) : (ofChar c).text = [c] := by
  unfold ofChar
  split_ifs with h₁ h₂ h₃ h₄ h₅ h₆ h₇
  all_goals simp only [text, Quantifier.symbol, *]

theorem not_isMeta_of_ofChar {c d : Char} (hc : c ≠ '\\') (h : ofChar c = .plain d) :
    ¬ IsMeta d := by
  unfold ofChar at h
  split_ifs at h with h₁ h₂ h₃ h₄ h₅ h₆ h₇
  rw [plain.injEq] at h
  subst h
  simp only [IsMeta, List.mem_cons, List.not_mem_nil, or_false, not_or]
  exact ⟨h₁, h₂, h₃, h₄, h₅, h₆, h₇, hc⟩

/-- A token that stands for itself has no other meaning. -/
def PlainOnly (kind : TokenKind) : Prop :=
  ∀ c, kind = .plain c → ¬ IsMeta c

end TokenKind

namespace Token

theorem scanFrom_cons {offset : Nat} {c : Char} (hc : c ≠ '\\') (rest : List Char) :
    scanFrom offset (c :: rest) = (scanFrom (offset + c.utf8Size) rest).map
      (⟨.ofChar c, ⟨offset, offset + c.utf8Size⟩⟩ :: ·) := by
  rw [scanFrom]
  · rintro rfl
    exact absurd rfl hc
  · rintro _ _ rfl
    exact absurd rfl hc

theorem ne_backslash {c : Char} {rest : List Char} (hlast : c = '\\' → rest = [] → False)
    (hmore : ∀ d more, c = '\\' → rest = d :: more → False) : c ≠ '\\' := by
  intro hc
  rcases rest with _ | ⟨d, more⟩
  · exact hlast hc rfl
  · exact hmore d more hc rfl

theorem map_eq_ok {tokens : List Token} {token : Token}
    {scanned : Except PatternError (List Token)} (h : scanned.map (token :: ·) = .ok tokens) :
    ∃ rest, scanned = .ok rest ∧ tokens = token :: rest := by
  rcases scanned with err | rest
  · exact nomatch h
  · exact ⟨rest, rfl, (Except.ok.inj h).symm⟩

/-- The texts of the tokens are the source, and only what has no other meaning is plain. -/
theorem scanFrom_spec (offset : Nat) (source : List Char) {tokens : List Token}
    (h : scanFrom offset source = .ok tokens) :
    tokens.flatMap (fun token => token.kind.text) = source ∧
      ∀ token ∈ tokens, token.kind.PlainOnly := by
  fun_induction scanFrom offset source generalizing tokens
  case case1 =>
    obtain rfl := Except.ok.inj h
    exact ⟨rfl, by simp⟩
  case case2 => exact nomatch h
  case case3 offset c rest ih =>
    obtain ⟨tokens, hrest, rfl⟩ := map_eq_ok h
    obtain ⟨htext, hplain⟩ := ih hrest
    rw [List.flatMap_cons, htext, List.forall_mem_cons]
    exact ⟨rfl, (fun _ hc => nomatch hc), hplain⟩
  case case4 offset c rest hlast hmore ih =>
    obtain ⟨tokens, hrest, rfl⟩ := map_eq_ok h
    obtain ⟨htext, hplain⟩ := ih hrest
    have hc := ne_backslash hlast hmore
    rw [List.flatMap_cons, htext, List.forall_mem_cons, TokenKind.text_ofChar]
    exact ⟨rfl, fun _ => TokenKind.not_isMeta_of_ofChar hc, hplain⟩

/-- What comes after a text that can be scanned does not change its tokens. -/
theorem scanFrom_append (offset : Nat) (source : List Char) {tokens : List Token}
    (h : scanFrom offset source = .ok tokens) (after : List Char) :
    scanFrom offset (source ++ after) =
      (scanFrom (offset + Utf8.byteLength source) after).map (tokens ++ ·) := by
  fun_induction scanFrom offset source generalizing tokens
  case case1 offset =>
    obtain rfl := Except.ok.inj h
    rw [Utf8.byteLength, Nat.add_zero, List.nil_append]
    rcases scanFrom offset after with _ | _ <;> rfl
  case case2 => cases h
  case case3 offset c rest ih =>
    obtain ⟨tokens, hrest, rfl⟩ := map_eq_ok h
    have hlength : offset + Utf8.byteLength ('\\' :: c :: rest) =
        offset + 1 + c.utf8Size + Utf8.byteLength rest := by
      rw [Utf8.byteLength, Utf8.byteLength, Nat.add_assoc, Nat.add_assoc]
      rfl
    rw [List.cons_append, List.cons_append, scanFrom, ih hrest, hlength]
    rcases scanFrom _ after with _ | _ <;> rfl
  case case4 offset c rest hlast hmore ih =>
    obtain ⟨tokens, hrest, rfl⟩ := map_eq_ok h
    have hc := ne_backslash hlast hmore
    rw [List.cons_append, scanFrom_cons hc, ih hrest, Utf8.byteLength, Nat.add_assoc]
    rcases scanFrom _ after with _ | _ <;> rfl

/-- A token's text scans to the token, wherever it begins and whatever comes after it. -/
theorem scanFrom_text : ∀ {kind : TokenKind}, kind.PlainOnly → ∀ (offset : Nat) (rest : List Char),
    scanFrom offset (kind.text ++ rest) =
      (scanFrom (offset + Utf8.byteLength kind.text) rest).map
        (⟨kind, ⟨offset, offset + Utf8.byteLength kind.text⟩⟩ :: ·)
  | .plain c, h, offset, rest => by
    have hc : c ≠ '\\' := by
      rintro rfl
      exact h _ rfl (by simp [IsMeta])
    rw [TokenKind.text, List.cons_append, scanFrom_cons hc, TokenKind.ofChar_eq_plain (h c rfl)]
    rfl
  | .escaped c, _, offset, rest => by
    have hlength : Utf8.byteLength ['\\', c] = 1 + c.utf8Size := rfl
    rw [TokenKind.text, hlength, ← Nat.add_assoc, List.cons_append, List.cons_append, scanFrom]
    rfl
  | .quantifier q, _, offset, rest => by
    have hc : q.symbol ≠ '\\' := by cases q <;> decide
    rw [TokenKind.text, List.cons_append, scanFrom_cons hc, TokenKind.ofChar_symbol]
    rfl
  | .pipe, _, _, _ | .parenOpen, _, _, _ | .parenClose, _, _, _ | .dot, _, _, _ =>
    scanFrom_cons (by decide) _

theorem scanFrom_eq_cons {offset : Nat} {source : List Char} {token : Token} {after : List Token}
    (h : scanFrom offset source = .ok (token :: after)) :
    ∃ rest, source = token.kind.text ++ rest ∧
      token.span = ⟨offset, offset + Utf8.byteLength token.kind.text⟩ ∧
      scanFrom (offset + Utf8.byteLength token.kind.text) rest = .ok after := by
  obtain ⟨htexts, hplain⟩ := scanFrom_spec offset source h
  rw [List.flatMap_cons] at htexts
  rw [← htexts, scanFrom_text (hplain token (by simp))] at h
  obtain ⟨tokens, hrest, htokens⟩ := map_eq_ok h
  obtain ⟨htoken, rfl⟩ := List.cons.inj htokens
  exact ⟨_, htexts.symm, congrArg span htoken, hrest⟩

/-- A token is the part of the text at its span, between the texts of the tokens before it and
those after it. -/
theorem scanFrom_eq_append_cons : ∀ (before : List Token) {offset : Nat} {source : List Char}
    {token : Token} {after : List Token}, scanFrom offset source = .ok (before ++ token :: after) →
      ∃ s rest, source = s ++ token.kind.text ++ rest ∧ scanFrom offset s = .ok before ∧
        token.span = ⟨offset + Utf8.byteLength s,
          offset + Utf8.byteLength (s ++ token.kind.text)⟩ ∧
        scanFrom (offset + Utf8.byteLength (s ++ token.kind.text)) rest = .ok after
  | [], offset, source, token, after, h => by
    obtain ⟨rest, hsource, hspan, hrest⟩ := scanFrom_eq_cons h
    exact ⟨[], rest, hsource, rfl, hspan, hrest⟩
  | first :: before, offset, source, token, after, h => by
    have hplain := (scanFrom_spec offset source h).2 first (by simp)
    obtain ⟨rest, rfl, hspan', hrest⟩ := scanFrom_eq_cons h
    obtain ⟨s, rest, rfl, hs, hspan, hafter⟩ := scanFrom_eq_append_cons before hrest
    refine ⟨first.kind.text ++ s, rest, by simp, ?_, ?_, ?_⟩
    · rw [scanFrom_text hplain, hs, ← hspan']
      rfl
    · simp [hspan, Nat.add_assoc]
    · rw [List.append_assoc, Utf8.byteLength_append, ← Nat.add_assoc]
      exact hafter

theorem eq_nil_of_scanFrom {offset : Nat} {source : List Char}
    (h : scanFrom offset source = .ok []) : source = [] :=
  (scanFrom_spec offset source h).1.symm

theorem map_eq_error {e : PatternError} {token : Token}
    {scanned : Except PatternError (List Token)} (h : scanned.map (token :: ·) = .error e) :
    scanned = .error e := by
  rcases scanned with err | rest
  · exact congrArg _ (Except.error.inj h)
  · exact nomatch h

/-- Scanning fails only at a backslash that ends the text. -/
theorem scanFrom_eq_error (offset : Nat) (source : List Char) {e : PatternError}
    (h : scanFrom offset source = .error e) :
    ∃ s, source = s ++ ['\\'] ∧ e = .ofKind .trailingBackslash
      ⟨offset + Utf8.byteLength s, offset + Utf8.byteLength source⟩ := by
  fun_induction scanFrom offset source
  case case1 => exact nomatch h
  case case2 offset => exact ⟨[], rfl, (Except.error.inj h).symm⟩
  case case3 offset c rest ih =>
    obtain ⟨s, rfl, rfl⟩ := ih (map_eq_error h)
    refine ⟨'\\' :: c :: s, rfl, ?_⟩
    have hslash : '\\'.utf8Size = 1 := rfl
    simp [Utf8.byteLength, hslash, Nat.add_assoc]
  case case4 offset c rest hlast hmore ih =>
    obtain ⟨s, rfl, rfl⟩ := ih (map_eq_error h)
    exact ⟨c :: s, rfl, by simp [Utf8.byteLength, Nat.add_assoc]⟩

end Token

namespace Reading

/-- The text has been read from the start, one token after the other. -/
inductive After : Reading → List Char → Prop
  | start : After .start []
  | token {r r' : Reading} {s : List Char} {kind : TokenKind} : After r s → kind.PlainOnly →
      r.step ⟨kind, ⟨Utf8.byteLength s, Utf8.byteLength (s ++ kind.text)⟩⟩ = .ok r' →
      After r' (s ++ kind.text)

variable {r r' : Reading}

theorem foldlM_step_concat {tokens : List Token} {token : Token} :
    (tokens ++ [token]).foldlM step r = .ok r' ↔
      ∃ r'', tokens.foldlM step r = .ok r'' ∧ r''.step token = .ok r' := by
  rw [List.foldlM_append]
  rcases tokens.foldlM step r with _ | r''
  · simp [bind, Except.bind]
  · simp only [List.foldlM_cons, List.foldlM_nil, bind_pure]
    simp [bind, Except.bind]

theorem after_of_foldlM_step {s : List Char} {tokens : List Token}
    (hscan : Token.scan s = .ok tokens) (hread : tokens.foldlM step .start = .ok r) :
    r.After s := by
  induction tokens using List.reverseRecOn generalizing s r with
  | nil =>
    obtain rfl := Token.eq_nil_of_scanFrom hscan
    obtain rfl := Except.ok.inj hread
    exact .start
  | append_singleton before token ih =>
    obtain ⟨r', hbefore, hr⟩ := foldlM_step_concat.mp hread
    have hplain := (Token.scanFrom_spec 0 s hscan).2 token (by simp)
    obtain ⟨s, none, rfl, hs, hspan, hnone⟩ := Token.scanFrom_eq_append_cons before hscan
    obtain rfl := Token.eq_nil_of_scanFrom hnone
    obtain ⟨kind, span⟩ := token
    simp only [Nat.zero_add] at hspan
    subst hspan
    rw [List.append_nil]
    exact .token (ih hs hbefore) hplain hr

end Reading

end PatternScan
