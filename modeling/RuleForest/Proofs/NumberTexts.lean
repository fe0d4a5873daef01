import RuleForest.Literal
import RuleForest.Setting
import RuleForest.Proofs.FoldingFaults
import RuleForest.Proofs.IntegerSpelling

namespace RuleForest

section Texts

variable {t : Token} {s : String} {n : Int}

theorem Token.literal_of_spelling (kind : t.kind = .integer) (value : t.value = .text s)
    (spelling : Numeral.Spelling s.toList n) : t.literal = .ok (.int n) := by
  simp only [literal, kind, value, Value.toInteger, spelling.read]
  rfl

theorem Token.literal_of_unspelled (kind : t.kind = .integer) (value : t.value = .text s)
    (unspelled : ∀ n, ¬ Numeral.Spelling s.toList n) :
    t.literal = .error (.blame (.malformedNumeral .integer (.text s)) t) := by
  have unread := Numeral.integer?_eq_none_iff.mpr unspelled
  simp only [literal, kind, value, Value.toInteger, unread, numberFault, Except.map, Except.mapError]

/-- Whatever is wrong with a number token that holds a text, the token is
blamed for a malformed numeral. -/
theorem Token.literal_text_faults {fault : Fault} (number : t.kind = .integer ∨ t.kind = .float)
    (value : t.value = .text s) (run : t.literal = .error fault) :
    fault = .blame (.malformedNumeral t.kind t.value) t := by
  obtain ⟨reason, rfl, text⟩ := literal_number_error number run
  rw [text s value]
  rfl

theorem Options.ofDepthSetting_of_spelling (spelling : Numeral.Spelling s.toList n) :
    ofDepthSetting (some s) =
      if 1 ≤ n then .ok { standard with maxDepth := n } else .error (.notPositive n) := by
  rw [ofDepthSetting, if_neg (by simp [spelling.not_blank]), spelling.read]
  by_cases positive : 1 ≤ n
  · rw [if_pos positive]
    exact if_neg (Int.not_lt.mpr positive)
  · rw [if_neg positive]
    exact if_pos (Int.not_le.mp positive)

theorem Options.ofDepthSetting_of_unspelled (unspelled : ∀ n, ¬ Numeral.Spelling s.toList n) :
    ofDepthSetting (some s) = if s.toList.all isBlank then .ok standard else .error (.notInteger s) := by
  rw [ofDepthSetting, Numeral.integer?_eq_none_iff.mpr unspelled]

/-- Options under a setting let at least one structure be read. -/
theorem Options.one_le_maxDepth {raw : Option String} {o : Options}
    (accepted : ofDepthSetting raw = .ok o) : 1 ≤ o.maxDepth := by
  cases raw with
  | none =>
    cases accepted
    decide
  | some s =>
    by_cases spelled : ∃ n, Numeral.Spelling s.toList n
    · obtain ⟨n, spelling⟩ := spelled
      rw [ofDepthSetting_of_spelling spelling] at accepted
      split at accepted
      · cases accepted
        assumption
      · cases accepted
    · rw [ofDepthSetting_of_unspelled (not_exists.mp spelled)] at accepted
      split at accepted
      · cases accepted
        decide
      · cases accepted

end Texts

/-- An integer token and the setting of the nesting limit read a text alike,
and read all spellings of an integer. The setting has to be positive besides.
Of the texts that spell no integer the setting takes the blank ones, and the
token none. So no setting forbids every structure, and a number token with a
text can only be blamed for its numeral. -/
theorem integerTexts_read_alike (t : Token) (s : String) (value : t.value = .text s)
    (setting? : String → Option String) (given : setting? depthSetting = some s) :
    (∀ n, Numeral.Spelling s.toList n →
      (t.kind = .integer → t.literal = .ok (.int n)) ∧
      Options.ofSettings setting? =
        if 1 ≤ n then .ok { Options.standard with maxDepth := n } else .error (.notPositive n)) ∧
    ((∀ n, ¬ Numeral.Spelling s.toList n) →
      (t.kind = .integer → t.literal = .error (.blame (.malformedNumeral .integer (.text s)) t)) ∧
      Options.ofSettings setting? =
        if s.toList.all isBlank then .ok .standard else .error (.notInteger s)) ∧
    (∀ settings o, Options.ofSettings settings = .ok o → 1 ≤ o.maxDepth) ∧
    ∀ fault, t.kind = .integer ∨ t.kind = .float → t.literal = .error fault →
      fault = .blame (.malformedNumeral t.kind t.value) t ∧ fault.category = .parse := by
  have same : Options.ofSettings setting? = Options.ofDepthSetting (some s) := by
    rw [Options.ofSettings, given]
  refine ⟨fun n spelling => ⟨fun kind => Token.literal_of_spelling kind value spelling, ?_⟩,
    fun unspelled => ⟨fun kind => Token.literal_of_unspelled kind value unspelled, ?_⟩,
    fun settings o => Options.one_le_maxDepth, fun fault number run => ?_⟩
  · rw [same, Options.ofDepthSetting_of_spelling spelling]
  · rw [same, Options.ofDepthSetting_of_unspelled unspelled]
  · obtain rfl := Token.literal_text_faults number value run
    exact ⟨rfl, rfl⟩

/-- A full-width twelve with an underscore, a sign and an ideographic space,
and a twelve with two underscores, which is none. -/
theorem integerTexts_of_twelve :
    (Token.mk .integer (.text "\u3000+\uFF11_2\n") 0 1).literal = .ok (.int 12) ∧
    Options.ofSettings (fun _ => some "\u3000+\uFF11_2\n") = .ok { Options.standard with maxDepth := 12 } ∧
    (Token.mk .integer (.text "1__2") 0 1).literal =
      .error (.blame (.malformedNumeral .integer (.text "1__2")) ⟨.integer, .text "1__2", 0, 1⟩) ∧
    Options.ofSettings (fun _ => some "1__2") = .error (.notInteger "1__2") := by
  have spelled : Numeral.Spelling "\u3000+\uFF11_2\n".toList 12 :=
    @Numeral.Spelling.mk ['\u3000'] ['+'] ['\uFF11', '_', '2'] ['\n'] false [1, 2]
      (List.forall_mem_singleton.mpr (by decide)) .plus (.spaced (by decide) (.last (by decide)))
      (by decide) (List.forall_mem_singleton.mpr (by decide))
  have unspelled : ∀ n, ¬ Numeral.Spelling "1__2".toList n :=
    Numeral.integer?_eq_none_iff.mp (by decide)
  obtain ⟨read, _⟩ := integerTexts_read_alike ⟨.integer, .text "\u3000+\uFF11_2\n", 0, 1⟩ _ rfl
    (fun _ => some "\u3000+\uFF11_2\n") rfl
  obtain ⟨_, refused, _⟩ := integerTexts_read_alike ⟨.integer, .text "1__2", 0, 1⟩ _ rfl
    (fun _ => some "1__2") rfl
  exact ⟨(read 12 spelled).1 rfl, (read 12 spelled).2, (refused unspelled).1 rfl,
    (refused unspelled).2⟩

end RuleForest
