import CrateIndex.Proofs.Requirement.Conversion

/-!
# Requirements converted again

A range can be converted like a requirement. Each time either a rule takes it, after which only a
wildcard that was asked for exactly can change once more, or its first comma goes. So the number of
commas bounds how often a requirement can change.
-/

namespace CrateIndex.Requirement

variable {expr s t : Text} {n : Nat}

/-- The range after some conversions, each of the range before. -/
def rangeAfter : Nat → Text → Except Wildcard.Failure Text
  | 0, expr => .ok expr
  | n + 1, expr => (toRange expr).result >>= rangeAfter n

/-- After that many conversions there is a failure, or a range that stays. -/
def Settles (n : Nat) (expr : Text) : Prop :=
  ∀ s, rangeAfter n expr = .ok s → (toRange s).result = .ok s

theorem rangeAfter_add (m n : Nat) (expr : Text) :
    rangeAfter (m + n) expr = rangeAfter m expr >>= rangeAfter n := by
  induction m generalizing expr with
  | zero => rw [Nat.zero_add]; rfl
  | succ m ih =>
      rw [Nat.succ_add, rangeAfter, rangeAfter]
      cases (toRange expr).result with
      | error f => rfl
      | ok s => exact ih s

theorem rangeAfter_one (h : (toRange expr).result = .ok s) : rangeAfter 1 expr = .ok s := by
  rw [rangeAfter, h]
  rfl

theorem rangeAfter_of_fixed (h : (toRange s).result = .ok s) (n : Nat) :
    rangeAfter n s = .ok s := by
  induction n with
  | zero => rfl
  | succ n ih => rw [rangeAfter, h, Result.ok_bind, ih]

theorem settles_succ_iff :
    Settles (n + 1) expr ↔ ∀ s, (toRange expr).result = .ok s → Settles n s := by
  unfold Settles
  simp only [rangeAfter, Result.bind_eq_ok_iff, forall_exists_index, and_imp]
  exact forall_comm.trans (forall_congr' fun _ => forall_comm)

theorem IsFinal.settles (h : IsFinal s) (n : Nat) : Settles n s := by
  intro t ht
  rw [rangeAfter_of_fixed h.toRange_eq] at ht
  cases ht
  exact h.toRange_eq

theorem Settles.succ (h : Settles n expr) : Settles (n + 1) expr := by
  induction n generalizing expr with
  | zero =>
      have hf : (toRange expr).result = .ok expr := h expr rfl
      intro s hs
      rw [rangeAfter_of_fixed hf] at hs
      cases hs
      exact hf
  | succ n ih => exact settles_succ_iff.2 fun s hs => ih (settles_succ_iff.1 h s hs)

theorem Settles.mono {m : Nat} (h : Settles m expr) (hmn : m ≤ n) : Settles n expr := by
  induction hmn with
  | refl => exact h
  | step _ ih => exact ih.succ

/-- Once a rule gave a range it changes at most once more, when it is a wildcard. -/
theorem settles_of_range {r : Rule} {runs : List Text} (hc : r.pattern.captures? t = some runs)
    (h : r.range t runs = .ok s) : Settles 1 s := by
  have hs : spaced s = s := spaced_of_notMem (Rule.comma_notMem_range hc h)
  refine settles_succ_iff.2 fun u hu => IsFinal.settles ?_ 0
  rcases toRange_eq_ok hu with ⟨r', runs', hc', hr'⟩ | ⟨hn, rfl⟩
  · have ha : r'.pattern.accepts s = true := by rw [Pattern.accepts, ← hs, hc']; rfl
    obtain ⟨rfl, -⟩ := Rule.eq_wildcard_of_accepts_range hc h ha
    exact isFinal_of_range (by decide) hc' hr'
  · rw [hs] at hn ⊢
    exact ⟨Rule.comma_notMem_range hc h, hn⟩

theorem settles_of_passed (hn : 1 ≤ n)
    (h : (∀ r : Rule, r.pattern.accepts (spaced expr) = false) → Settles n (spaced expr)) :
    Settles (n + 1) expr := by
  refine settles_succ_iff.2 fun s hs => ?_
  rcases toRange_eq_ok hs with ⟨r, runs, hc, hr⟩ | ⟨ha, rfl⟩
  · exact (settles_of_range hc hr).mono hn
  · exact h ha

theorem settles (expr : Text) : Settles (max (commas expr) 1 + 1) expr := by
  have hs := commas_spaced expr
  refine settles_of_passed (Nat.le_max_right _ _) fun ha => ?_
  by_cases h0 : commas (spaced expr) = 0
  · exact IsFinal.settles ⟨List.count_eq_zero.1 h0, ha⟩ _
  · -- A comma went and one is left.
    have hmax : max (commas expr) 1 = max (commas (spaced expr)) 1 + 1 := by omega
    rw [hmax]
    exact settles (spaced expr)
termination_by commas expr
decreasing_by omega

/-- The steps of a chain are the conversions of the ranges before, as far as there are any. -/
theorem convertRepeatedly_eq (expr : Text) (n : Nat) : convertRepeatedly expr n =
    (List.range n).filterMap fun i => (rangeAfter i expr).toOption.map convert := by
  induction n generalizing expr with
  | zero => rfl
  | succ n ih =>
      have hzero : (rangeAfter 0 expr).toOption.map convert = some (convert expr) := rfl
      rw [List.range_succ_eq_map, List.filterMap_cons, List.filterMap_map, convertRepeatedly, hzero]
      cases hc : convert expr with
      | error f =>
          have hstop (i : Nat) : rangeAfter (i + 1) expr = .error f := by
            rw [rangeAfter, result_toRange, hc]
            rfl
          have hnone : (List.range n).filterMap
              ((fun i => (rangeAfter i expr).toOption.map convert) ∘ Nat.succ) = [] := by
            refine List.filterMap_eq_nil_iff.2 fun i _ => ?_
            rw [Function.comp_apply, Nat.succ_eq_add_one, hstop]
            rfl
          rw [hnone]
      | ok d =>
          have hnext (i : Nat) : rangeAfter (i + 1) expr = rangeAfter i d.range := by
            rw [rangeAfter, result_toRange, hc]
            rfl
          have hrest : (fun i => (rangeAfter i expr).toOption.map convert) ∘ Nat.succ =
              fun i => (rangeAfter i d.range).toOption.map convert := by
            funext i
            rw [Function.comp_apply, Nat.succ_eq_add_one, hnext]
          rw [hrest, ← ih d.range]

/-! ## Chains as long as can be -/

/-- A wildcard asked for exactly, behind spaces and commas. -/
def exactWildcard (spaces commas : Nat) : Text :=
  "=" ++ (List.replicate spaces (CodePoint.ofChar ' ') ++
    (List.replicate commas (CodePoint.ofChar ',') ++ "1.x"))

theorem commas_exactWildcard (k c : Nat) : commas (exactWildcard k c) = c := by
  have hw : (Text.ofString "1.x").count (CodePoint.ofChar ',') = 0 := by decide
  have he : (Text.ofString "=").count (CodePoint.ofChar ',') = 0 := by decide
  simp [commas, exactWildcard, List.count_replicate, hw, he]

theorem spaced_exactWildcard_succ (k c : Nat) :
    spaced (exactWildcard k (c + 1)) = exactWildcard (k + 1) c := by
  have he : CodePoint.ofChar ',' ∉ Text.ofString "=" := by decide
  have hk : CodePoint.ofChar ',' ∉ List.replicate k (CodePoint.ofChar ' ') := by
    intro h
    have hne := List.eq_of_mem_replicate h
    revert hne
    decide
  rw [spaced, exactWildcard, Text.replaceFirst_append he, Text.replaceFirst_append hk,
    List.replicate_succ, List.cons_append, Text.replaceFirst, if_pos rfl, exactWildcard,
    List.replicate_succ', List.append_assoc]
  rfl

theorem captures_exactWildcard (k : Nat) :
    Rule.exact.pattern.captures? (exactWildcard k 0) = some [("1.x" : Text)] := by
  have hk : ∀ x ∈ List.replicate k (CodePoint.ofChar ' '), (CharClass.just ' ').holds x = true := by
    intro x hx
    rw [List.eq_of_mem_replicate hx]
    decide
  have hrest : Pattern.longestRun (CharClass.just ' ').holds
      (Pattern.captures? [.capture .tag]) "1.x" = some ([], [("1.x" : Text)]) := by decide
  have hrun := Pattern.longestRun_append hk hrest
  have hcut : Rule.exact.pattern.captures? (exactWildcard k 0) =
      (Pattern.longestRun (CharClass.just ' ').holds (Pattern.captures? [.capture .tag])
        (List.replicate k (CodePoint.ofChar ' ') ++ "1.x")).map Prod.snd := rfl
  rw [hcut, hrun]
  rfl

theorem toRange_exactWildcard {expr : Text} {k : Nat} (h : spaced expr = exactWildcard k 0) :
    (toRange expr).result = .ok "1.x" := by
  rw [toRange_of_captures (h ▸ captures_exactWildcard k)]
  rfl

theorem not_accepts_exactWildcard (k c : Nat) (r : Rule) :
    r.pattern.accepts (exactWildcard k (c + 1)) = false := by
  rw [← Bool.not_eq_true]
  intro ha
  -- Its operator leaves one rule, and that one takes no comma.
  have hops : (exactWildcard k (c + 1)).filter CodePoint.isOperator = "=" := by
    simp only [exactWildcard, List.filter_append, List.filter_replicate]
    rfl
  have hr : r = .exact := by
    apply Rule.operators_injective
    rw [← Pattern.filter_isOperator_of_accepts r.isPlain_pattern ha, hops]
    rfl
  subst hr
  obtain ⟨runs, hc⟩ := Option.isSome_iff_exists.1 ha
  have hcomma : CodePoint.ofChar ',' ∈ exactWildcard k (c + 1) := by
    rw [← List.count_pos_iff]
    exact Nat.lt_of_lt_of_eq (Nat.succ_pos c) (commas_exactWildcard k (c + 1)).symm
  exact (Pattern.takes_of_captures hc).notMem (by decide) hcomma

theorem rangeAfter_exactWildcard (k c : Nat) :
    rangeAfter (max c 1) (exactWildcard k c) = .ok "1.x" := by
  induction c generalizing k with
  | zero =>
      have hs : spaced (exactWildcard k 0) = exactWildcard k 0 :=
        spaced_of_notMem (List.count_eq_zero.1 (commas_exactWildcard k 0))
      exact rangeAfter_one (toRange_exactWildcard hs)
  | succ c ih =>
      have hs := spaced_exactWildcard_succ k c
      cases c with
      | zero => exact rangeAfter_one (toRange_exactWildcard hs)
      | succ c =>
          have hmax : max (c + 1 + 1) 1 = max (c + 1) 1 + 1 := by omega
          have hstep : (toRange (exactWildcard k (c + 1 + 1))).result =
              .ok (spaced (exactWildcard k (c + 1 + 1))) :=
            toRange_of_not_accepts (hs ▸ not_accepts_exactWildcard (k + 1) c)
          rw [hmax, rangeAfter, hstep, hs, Result.ok_bind, ih]

theorem toRange_wildcard_ne : (toRange "1.x").result ≠ .ok "1.x" := by decide +kernel

/-- Converting again and again, each time the range before, comes to an end after no more
conversions than there are commas, be it one, and one more: by then it has failed, or the range
stays. No smaller number would do. -/
theorem rangeAfter_settles :
    (∀ expr n, convertRepeatedly expr n =
      (List.range n).filterMap fun i => (rangeAfter i expr).toOption.map convert) ∧
    (∀ expr : Text, (∃ f, rangeAfter (max (commas expr) 1 + 1) expr = .error f) ∨
      ∃ s, ∀ k, rangeAfter (max (commas expr) 1 + 1 + k) expr = .ok s) ∧
    ∀ c, ∃ expr, commas expr = c ∧
      ∃ s, rangeAfter (max c 1) expr = .ok s ∧ (toRange s).result ≠ .ok s := by
  refine ⟨convertRepeatedly_eq, ?_, ?_⟩
  · intro expr
    cases hr : rangeAfter (max (commas expr) 1 + 1) expr with
    | error f => exact .inl ⟨f, rfl⟩
    | ok s =>
        refine .inr ⟨s, fun k => ?_⟩
        rw [rangeAfter_add, hr]
        exact rangeAfter_of_fixed (settles expr s hr) k
  · intro c
    exact ⟨exactWildcard 0 c, commas_exactWildcard 0 c, "1.x", rangeAfter_exactWildcard 0 c,
      toRange_wildcard_ne⟩

end CrateIndex.Requirement
