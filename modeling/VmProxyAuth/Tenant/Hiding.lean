import VmProxyAuth.Tenant.Regrouping

/-!
# Samples hidden by a clause

A clause of the query that does not compare all labels hides samples of one account behind those of
another, when the rewritten query is read as one chain.  For any list of clauses with such a clause
there is a query: all its operands are `down`, which no series has, but for a sum after the clause
by a label the clause does not compare (`exists_not_meansTree`).  So the text means the tree exactly
if every clause compares all labels but the metric name (`meansTree_iff_plain`).
-/

namespace VmProxyAuth

namespace Tenant

open PromQL

/-! ### Queries with given clauses -/

/-- An expression joined with an operand by an `or` with a clause. -/
def orWith (operand lhs : Expr) (c : Clause) : Expr :=
  .binaryExpr .lor lhs operand (some ⟨.manyToMany, c.labels, c.on, []⟩) false

/-- An expression joined with an operand by an `or` for each of the clauses. -/
def orAll (operand lhs : Expr) (clauses : List Clause) : Expr :=
  clauses.foldl (orWith operand) lhs

section

variable (operand lhs : Expr) (clauses : List Clause)

theorem orAll_updateSelectors (f : VectorSelector → VectorSelector) :
  (orAll operand lhs clauses).updateSelectors f
    = orAll (operand.updateSelectors f) (lhs.updateSelectors f) clauses
  := by
  induction clauses generalizing lhs with
  | nil => rfl
  | cons c clauses ih => apply ih

theorem joinLeft_orAll (left : Expr) (matching : Option VectorMatching) :
  left.joinLeft matching (orAll operand lhs clauses)
    = orAll operand (left.joinLeft matching lhs) clauses
  := by
  induction clauses generalizing lhs with
  | nil => rfl
  | cons c clauses ih =>
    apply (ih (orWith operand lhs c)).trans
    rw [orWith, Expr.joinLeft]
    rfl

theorem orClauses_orAll :
  (orAll operand lhs clauses).orClauses = lhs.orClauses ++ clauses
  := by
  induction clauses generalizing lhs with
  | nil => simp [orAll]
  | cons c clauses ih =>
    apply (ih (orWith operand lhs c)).trans
    rw [orWith, Expr.orClauses_or, List.append_assoc]
    rfl

/-- An operand without samples changes nothing. -/
theorem samplesAt_orAll {V : Type} {E : Engine V} {t : ℤ} (h : samplesAt E t operand = ∅) :
  samplesAt E t (orAll operand lhs clauses) = samplesAt E t lhs
  := by
  induction clauses generalizing lhs with
  | nil => rfl
  | cons c clauses ih =>
    apply (ih (orWith operand lhs c)).trans
    rw [orWith, samplesAt_or_matching, h, KeyedUnion.orElse_empty]

end

/-- The vector selector `down`. -/
def downSelector : VectorSelector := metricSelector (str "down")

/-- A query with given clauses, of which only the operand after `c` has samples, with one label. -/
def markedQuery (label : GoString) (before : List Clause) (c : Clause) (after : List Clause) :
    Expr :=
  orAll (.vectorSelector downSelector) (orWith (sumUpBy [label])
    (orAll (.vectorSelector downSelector) (.vectorSelector downSelector) before) c) after

/-- The labels with a value of one label. -/
def oneLabel (label value : GoString) : Series := restrictTo [label] (fun _ => value)

theorem restrictTo_oneLabel {labels : List GoString} {label : GoString} (h : label ∉ labels)
    (value : GoString) :
  restrictTo labels (oneLabel label value) = fun _ => []
  := by
  funext name
  rw [restrictTo, oneLabel, restrictTo]
  split
  · rename_i hname
    have hne : name ∉ [label] := fun hmem => h (List.mem_singleton.mp hmem ▸ hname)
    rw [if_neg hne]
  · rfl

theorem remove_oneLabel {labels : List GoString} {label : GoString} (h : label ∈ labels)
    (value : GoString) :
  remove labels (oneLabel label value) = fun _ => []
  := by
  funext name
  rw [remove, oneLabel, restrictTo]
  split
  · rfl
  · rename_i hname
    have hne : name ∉ [label] := fun hmem => hname (List.mem_singleton.mp hmem ▸ h)
    rw [if_neg hne]

section

open QueryText

/-- There is always a further label. -/
theorem exists_clauseLabel (labels : List GoString) :
  ∃ label, isClauseLabel label = true ∧ label ≠ metricName ∧ label ∉ labels
  := by
  have hinjective : Function.Injective (fun n : ℕ => (List.replicate (n + 1) 0x61 : GoString)) := by
    intro n n' heq
    have hlength := congrArg List.length heq
    simpa using hlength
  obtain ⟨_, ⟨n, rfl⟩, hnot⟩ := (Set.infinite_range_of_injective hinjective).exists_notMem_finset
    (metricName :: labels).toFinset
  rw [List.mem_toFinset, List.mem_cons, not_or] at hnot
  use List.replicate (n + 1) 0x61
  refine ⟨?_, hnot⟩
  have hlower : lower (List.replicate (n + 1) 0x61) = List.replicate (n + 1) 0x61 := by
    rw [lower, List.map_replicate]
    rfl
  have hword : ∀ word ∈ numberWords, word.head? ≠ some 0x61 := by decide
  rw [isClauseLabel, isLabelName, hlower, List.all_replicate, Bool.and_eq_true, Bool.and_eq_true,
    decide_eq_true_eq]
  refine ⟨⟨rfl, ?_⟩, ?_⟩
  · simp [isLabelByte, isLetter]
  · intro hmem
    apply hword _ hmem rfl

/-- A clause that does not compare all labels does not compare some label. -/
theorem exists_label_of_not_plain {c : Clause} (h : ¬ c.Plain)
    (hlabels : ∀ label ∈ c.labels, isClauseLabel label = true) :
  ∃ label, isClauseLabel label = true ∧ label ≠ metricName ∧ ∀ value value',
    signature (some ⟨.manyToMany, c.labels, c.on, []⟩) (oneLabel label value)
      = signature (some ⟨.manyToMany, c.labels, c.on, []⟩) (oneLabel label value')
  := by
  cases hon : c.on with
  | true =>
    -- a label that is not among those compared
    obtain ⟨label, hlabel, hname, hnot⟩ := exists_clauseLabel c.labels
    use label, hlabel, hname
    intro value value'
    simp only [signature, if_true, restrictTo_oneLabel hnot]
  | false =>
    have hall : ¬ ∀ label ∈ c.labels, label = metricName := fun hall => h ⟨hon, hall⟩
    push Not at hall
    obtain ⟨label, hmem, hname⟩ := hall
    use label, hlabels label hmem, hname
    intro value value'
    simp only [signature, Bool.false_eq_true, if_false, remove_oneLabel hmem]

/-- The series `up` of an account, which also has the account under another name. -/
def markSeries (label account : GoString) : Series :=
  Function.update (upSeries account) label account

/-- The accounts `1` and `2` with the series `up`. -/
noncomputable def markEngine (label : GoString) : Engine ℤ :=
  { upEngine with
    series := {⟨markSeries label (str "1"), fun _ => some 1⟩,
      ⟨markSeries label (str "2"), fun _ => some 1⟩} }

/-- The sample with the account as its only label. -/
def markSample (label account : GoString) : Sample ℤ := ⟨oneLabel label account, 1⟩

/-- The samples of the accounts `1` and `2` differ in all labels but the metric name. -/
theorem sampleKey_markSample_ne {label : GoString} (h : label ≠ metricName) :
  sampleKey (markSample label (str "1")) ≠ sampleKey (markSample label (str "2"))
  := by
  intro hkey
  have hvalue := congrFun hkey label
  have hlabels : ∀ account, (markSample label account).labels label = account :=
    fun account => if_pos List.mem_cons_self
  rw [sampleKey, sampleKey, dropName_apply h, dropName_apply h, hlabels, hlabels] at hvalue
  cases hvalue

/-- The group of an account with all its projects. -/
def wholeAccount (account : GoString) : Group := ⟨account, [], true⟩

section

variable {label : GoString} (hname : label ≠ metricName)

include hname

/-- A series of another account is not selected for an account. -/
theorem selects_markSeries (account account' : GoString) :
  (injectGroup defaultFilter.labels (wholeAccount account) upSelector).selects
      (markEngine label).regexp (markSeries label account') = true ↔ account' = account
  := by
  have haccount : markSeries label account' defaultFilter.labels.tenantLabel = account' := by
    rw [markSeries, Function.update_apply]
    split
    · rfl
    · rfl
  have hup : upSelector.selects (markEngine label).regexp (markSeries label account') = true := by
    have hmetric : markSeries label account' metricName = str "up" := by
      rw [markSeries, Function.update_of_ne hname.symm]
      rfl
    simp [VectorSelector.selects, upSelector, metricSelector, Matcher.matches, hmetric]
  have hprojects : projectMatchers (wholeAccount account) defaultFilter.labels.projectLabel
      defaultFilter.labels.useProjectID = [] := rfl
  rw [selects_injectGroup (by decide), haccount, hprojects]
  simp [hup, wholeAccount]

/-- For an account, the sum has one sample, with the account under the other name. -/
theorem groupSamples_sum {account : GoString} (h : account = str "1" ∨ account = str "2") :
  groupSamples (markEngine label) 0 defaultFilter (sumUpBy [label]) (wholeAccount account)
    = {markSample label account}
  := by
  have hsum : groupSamples (markEngine label) 0 defaultFilter (sumUpBy [label])
      (wholeAccount account)
      = (markEngine label).aggregateVector .sum none [label] false ((markEngine label).selectInstant
        (injectGroup defaultFilter.labels (wholeAccount account) upSelector) 0) := rfl
  have hselect : (markEngine label).selectInstant
      (injectGroup defaultFilter.labels (wholeAccount account) upSelector) 0
      = {⟨markSeries label account, 1⟩} := by
    obtain rfl | rfl := h
    · apply selectInstant_pair ((selects_markSeries hname _ _).mpr rfl)
      · intro hother
        apply absurd ((selects_markSeries hname _ _).mp hother)
        decide
      · rfl
    · rw [markEngine, Set.pair_comm]
      apply selectInstant_pair ((selects_markSeries hname _ _).mpr rfl)
      · intro hother
        apply absurd ((selects_markSeries hname _ _).mp hother)
        decide
      · rfl
  have hlabels : groupLabels [label] false (markSeries label account) = oneLabel label account := by
    funext name
    rw [groupLabels, if_neg Bool.false_ne_true, oneLabel, restrictTo, restrictTo]
    split
    · rename_i hmem
      rw [List.mem_singleton.mp hmem, markSeries, Function.update_self]
    · rfl
  have hvalue : (markEngine label).aggregate .sum none {⟨markSeries label account, 1⟩} = 1 :=
    finsum_mem_singleton
  rw [hsum, hselect, aggregateVector_singleton rfl (by rintro ⟨⟩), hvalue, hlabels]
  rfl

end

/-- Without series `down` a vector selector for them selects nothing. -/
theorem selectInstant_down {E : Engine ℤ} {t : ℤ}
    (h : ∀ s ∈ E.series, s.labels metricName ≠ str "down") {vs : VectorSelector}
    (hvs : ⟨.equal, metricName, str "down"⟩ ∈ vs.labelMatchers) :
  E.selectInstant vs t = ∅
  := by
  rw [Set.eq_empty_iff_forall_notMem]
  rintro x ⟨s, hs, hselects, -⟩
  have hmatches := List.all_eq_true.mp hselects _ hvs
  apply h s hs (eq_of_beq hmatches)

/-- There are no series `down`. -/
theorem ne_down_of_mem_markEngine {label : GoString} (hname : label ≠ metricName) :
  ∀ s ∈ (markEngine label).series, s.labels metricName ≠ str "down"
  := by
  have hup : ∀ account, markSeries label account metricName ≠ str "down" := by
    intro account
    have hmetric : upSeries account metricName = str "up" := rfl
    rw [markSeries, Function.update_of_ne hname.symm, hmetric]
    decide
  rintro s (rfl | rfl)
  · apply hup
  · apply hup

/-- The changes to the vector selectors that come to the injection of an account, up to the order
of matchers. -/
def Injects (f : VectorSelector → VectorSelector) (account : GoString) : Prop :=
  ∀ vs, Readable vs → (f vs).Same (injectGroup defaultFilter.labels (wholeAccount account) vs)

section

variable {label : GoString} (hname : label ≠ metricName) {f : VectorSelector → VectorSelector}
  {account : GoString} (h : account = str "1" ∨ account = str "2") (hf : Injects f account)

include hname h hf

theorem samplesAt_sum :
  samplesAt (markEngine label) 0 ((sumUpBy [label]).updateSelectors f) = {markSample label account}
  := by
  rw [← groupSamples_sum hname h, samplesAt, eval_updateSelectors_congr]
  · rfl
  · intro vs hvs
    rw [List.mem_singleton.mp hvs]
    apply hf _ (readable_metricSelector isMetricName_up)

omit h in
theorem samplesAt_down :
  samplesAt (markEngine label) 0 ((Expr.vectorSelector downSelector).updateSelectors f) = ∅
  := by
  have hsame := hf downSelector (readable_metricSelector (by decide +kernel))
  apply selectInstant_down (ne_down_of_mem_markEngine hname)
  rw [hsame.mem_iff]
  apply List.mem_append_left _ (List.mem_append_left _ List.mem_cons_self)

variable (before : List Clause) (c : Clause) (after : List Clause)

omit hname h hf in
theorem markedQuery_updateSelectors :
  (markedQuery label before c after).updateSelectors f
    = orAll ((Expr.vectorSelector downSelector).updateSelectors f)
      (orWith ((sumUpBy [label]).updateSelectors f)
        (orAll ((Expr.vectorSelector downSelector).updateSelectors f)
          ((Expr.vectorSelector downSelector).updateSelectors f) before) c) after
  := by
  have hor : ∀ operand lhs : Expr, (orWith operand lhs c).updateSelectors f
      = orWith (operand.updateSelectors f) (lhs.updateSelectors f) c := fun _ _ => rfl
  rw [markedQuery, orAll_updateSelectors, hor, orAll_updateSelectors]

/-- The samples of an account. -/
theorem samplesAt_markedQuery :
  samplesAt (markEngine label) 0 ((markedQuery label before c after).updateSelectors f)
    = {markSample label account}
  := by
  have hdown := samplesAt_down hname hf
  rw [markedQuery_updateSelectors, samplesAt_orAll _ _ _ hdown, orWith, samplesAt_or_matching,
    samplesAt_orAll _ _ _ hdown, hdown, samplesAt_sum hname h hf]
  apply KeyedUnion.empty_orElse

/-- Read after another expression, the query of an account gives only the samples that are not
hidden by the clause. -/
theorem samplesAt_joinLeft_markedQuery (left : Expr) :
  samplesAt (markEngine label) 0
      (left.joinLeft none ((markedQuery label before c after).updateSelectors f))
    = KeyedUnion.orElse
      (fun x => signature (some ⟨.manyToMany, c.labels, c.on, []⟩) x.labels)
      (samplesAt (markEngine label) 0 left) {markSample label account}
  := by
  have hdown := samplesAt_down hname hf
  have hleft : samplesAt (markEngine label) 0 (left.joinLeft none
      ((Expr.vectorSelector downSelector).updateSelectors f))
      = samplesAt (markEngine label) 0 left := by
    rw [Expr.joinLeft_of_isOr rfl, samplesAt_or_matching, hdown]
    apply KeyedUnion.orElse_empty
  rw [markedQuery_updateSelectors, joinLeft_orAll, samplesAt_orAll _ _ _ hdown, orWith,
    Expr.joinLeft, samplesAt_or_matching, joinLeft_orAll, samplesAt_orAll _ _ _ hdown, hleft,
    samplesAt_sum hname h hf]

end

/-! ### Reading the marked query -/

/-- A chain of readable operands with further ones. -/
theorem readableChain_orAll {operand lhs : Expr} (hlhs : ReadableChain wordRules lhs)
    (htype : lhs.type wordRules = .vector) (hoperand : Operand operand)
    (haccepts : ∀ vs ∈ operand.selectors, wordRules.acceptsSelector vs = true)
    (hvector : operand.type wordRules = .vector) (clauses : List Clause)
    (hclauses : ∀ c ∈ clauses, ∀ label ∈ c.labels, isClauseLabel label = true) :
  ReadableChain wordRules (orAll operand lhs clauses) ∧
    (orAll operand lhs clauses).type wordRules = .vector
  := by
  induction clauses generalizing lhs with
  | nil => use hlhs, htype
  | cons c clauses ih =>
    rw [List.forall_mem_cons] at hclauses
    apply ih _ (type_or htype) hclauses.2
    apply hlhs.join hoperand haccepts _ ⟨htype, hvector⟩
    rintro m ⟨⟩
    use rfl, rfl, hclauses.1

theorem isMetricName_down :
  isMetricName (str "down") = true
  := by
  decide +kernel

theorem operand_metric {name : GoString} (h : isMetricName name = true) :
  Operand (.vectorSelector (metricSelector name)) ∧
    ∀ vs ∈ (Expr.vectorSelector (metricSelector name)).selectors,
      wordRules.acceptsSelector vs = true
  := by
  use .selector (readable_metricSelector h)
  intro vs hvs
  rw [List.mem_singleton.mp hvs]
  apply acceptsSelector_metricSelector
  rintro rfl
  cases h

section

variable {label : GoString} (hlabel : isClauseLabel label = true)
  {before : List Clause} {c : Clause} {after : List Clause}
  (hclauses : ∀ c' ∈ before ++ c :: after, ∀ label ∈ c'.labels, isClauseLabel label = true)

include hlabel hclauses

theorem readableChain_markedQuery :
  ReadableChain wordRules (markedQuery label before c after) ∧
    (markedQuery label before c after).type wordRules = .vector
  := by
  rw [List.forall_mem_append, List.forall_mem_cons] at hclauses
  obtain ⟨hbefore, hc, hafter⟩ := hclauses
  obtain ⟨hdown, haccepts⟩ := operand_metric isMetricName_down
  have hsum : Operand (sumUpBy [label]) := by
    apply operand_sumUpBy
    rwa [List.forall_mem_singleton]
  obtain ⟨hfirst, htfirst⟩ := readableChain_orAll (readableChain_operand hdown haccepts) rfl hdown
    haccepts rfl before hbefore
  obtain ⟨hsecond, htsecond⟩ := readableChain_orAll hfirst htfirst hsum
    (operand_metric isMetricName_up).2 rfl [c] (by rwa [List.forall_mem_singleton])
  apply readableChain_orAll hsecond htsecond hdown haccepts rfl after hafter

/-- The assumption on the parser is met. -/
theorem readsQuery_markedQuery :
  ReadsQuery wordParser wordRules clauseText (readSelector (fun _ => false)) defaultFilter.labels
    (optimizeGroups twoAccounts) (markedQuery label before c after)
  := by
  apply readsQuery_textParser
  apply (readableChain_markedQuery hlabel hclauses).1

end

theorem orClauses_markedQuery (label : GoString) (before : List Clause) (c : Clause)
    (after : List Clause) :
  (markedQuery label before c after).orClauses = before ++ c :: after
  := by
  rw [markedQuery, orClauses_orAll, orWith, Expr.orClauses_or, orClauses_orAll]
  simp [Expr.orClauses, Expr.matchings, clauseOf]

/-- What is read from the rewritten query is the query with an account injected twice, regrouped. -/
theorem injects_read (account : GoString) :
  Injects
    (readSelector (fun _ => false) ∘ injectGroup defaultFilter.labels (wholeAccount account)
      ∘ readSelector (fun _ => false)) account
  := by
  intro vs hvs
  have hread := readable_readSelector (fun _ => false) hvs
  apply (same_readSelector _ (readable_injectGroup hread _)).trans
  apply injectGroup_same _ _ (same_readSelector _ hvs)

theorem injects_inject (account : GoString) :
  Injects (injectGroup defaultFilter.labels (wholeAccount account)) account
  := by
  intro vs _
  apply VectorSelector.Same.refl

section

variable {label : GoString} (hlabel : isClauseLabel label = true) (hname : label ≠ metricName)
  {before : List Clause} {c : Clause} {after : List Clause}
  (hclauses : ∀ c' ∈ before ++ c :: after, ∀ label ∈ c'.labels, isClauseLabel label = true)

include hlabel hclauses

/-- The text of the query is read as the query. -/
theorem parse_exprString_markedQuery :
  wordParser.parseExpr (wordParser.exprString (markedQuery label before c after))
    = .ok (markedQuery label before c after)
  := by
  have hread : (markedQuery label before c after).updateSelectors (readSelector (fun _ => false))
      = markedQuery label before c after := by
    rw [markedQuery_updateSelectors, sumUpBy, Expr.updateSelectors, Expr.updateSelectors,
      downSelector, upSelector, readSelector_metricSelector, Expr.updateSelectors,
      readSelector_metricSelector]
    rfl
  have hreparse := (readsQuery_markedQuery hlabel hclauses).reparses
  rwa [hread] at hreparse

include hname

/-- The tree has the sample of the account `2`. -/
theorem mem_tree_markedQuery :
  markSample label (str "2") ∈ samplesAt (markEngine label) 0 (createSecureORExpression wordParser
    (markedQuery label before c after) twoAccounts defaultFilter twoAccounts_ne_nil)
  := by
  have hgroup : ∀ {account : GoString}, account = str "1" ∨ account = str "2" →
      groupSamples (markEngine label) 0 defaultFilter (markedQuery label before c after)
        (wholeAccount account) = {markSample label account} :=
    fun h => samplesAt_markedQuery hname h (injects_inject _) before c after
  rw [mem_samplesAt_createSecureORExpression (readsQuery_markedQuery hlabel hclauses).reparse,
    optimizeGroups_twoAccounts, List.map_cons, List.map_cons, List.map_nil]
  right
  constructor
  · intro y hy
    rw [Set.mem_singleton_iff.mp ((hgroup (Or.inl rfl)).le hy)]
    apply sampleKey_markSample_ne hname
  · left
    apply (hgroup (Or.inr rfl)).ge rfl

omit hlabel hclauses in
/-- What is read from the text is without the sample of the account `2`, if the clause does not
compare the label. -/
theorem notMem_read_markedQuery
    (hsignature : ∀ value value',
      signature (some ⟨.manyToMany, c.labels, c.on, []⟩) (oneLabel label value)
        = signature (some ⟨.manyToMany, c.labels, c.on, []⟩) (oneLabel label value')) :
  markSample label (str "2") ∉ samplesAt (markEngine label) 0
    (readSecure (readSelector (fun _ => false)) defaultFilter.labels
      (markedQuery label before c after) (wholeAccount (str "1")) [wholeAccount (str "2")])
  := by
  have hoperand : ∀ account, readOperand (readSelector (fun _ => false)) defaultFilter.labels
      (copyOf (readSelector (fun _ => false)) (markedQuery label before c after)
        [wholeAccount (str "2")]) (wholeAccount account)
      = (markedQuery label before c after).updateSelectors (readSelector (fun _ => false)
        ∘ injectGroup defaultFilter.labels (wholeAccount account)
        ∘ readSelector (fun _ => false)) := by
    intro account
    rw [copyOf, if_neg (List.cons_ne_nil _ _), readOperand, injectTenantToExpression,
      updateSelectors_updateSelectors, updateSelectors_updateSelectors]
    rfl
  have hkey := sampleKey_markSample_ne hname
  have hne : markSample label (str "2") ≠ markSample label (str "1") :=
    fun heq => hkey (congrArg sampleKey heq.symm)
  rw [readSecure, List.foldl_cons, List.foldl_nil, hoperand, hoperand,
    samplesAt_joinLeft_markedQuery hname (Or.inr rfl) (injects_read _),
    samplesAt_markedQuery hname (Or.inl rfl) (injects_read _),
    KeyedUnion.mem_orElse_singleton_iff hne, not_not]
  apply hsignature

end

/-- A query with a clause that does not compare all labels is read without a sample of the tree. -/
theorem exists_not_meansTree {before : List Clause} {c : Clause} {after : List Clause}
    (hclauses : ∀ c' ∈ before ++ c :: after, ∀ label ∈ c'.labels, isClauseLabel label = true)
    (h : ¬ c.Plain) :
  ∃ label, isClauseLabel label = true ∧
    ¬ MeansTree wordParser (wordParser.exprString (markedQuery label before c after))
      (markedQuery label before c after) twoAccounts defaultFilter twoAccounts_ne_nil
  := by
  have hc : c ∈ before ++ c :: after := List.mem_append_right _ List.mem_cons_self
  obtain ⟨label, hlabel, hname, hsignature⟩ := exists_label_of_not_plain h (hclauses c hc)
  use label, hlabel
  rintro ⟨result, read, hresult, hread, heval⟩
  have hP := readsQuery_markedQuery hlabel hclauses
  rw [buildSecureQuery_of_parse (parse_exprString_markedQuery hlabel hclauses) twoAccounts_ne_nil,
    optimizeGroups_twoAccounts] at hresult
  cases hresult
  obtain ⟨-, -, rfl⟩ := (hP.parse_secureExprOf optimizeGroups_twoAccounts _).mp hread
  have hmem := mem_tree_markedQuery hlabel hname hclauses
  rw [samplesAt, ← heval] at hmem
  apply notMem_read_markedQuery hname hsignature hmem

/-! ### Two operands -/

/-- The query `down or up`, with a clause. -/
def downOrUp (c : Clause) : Expr :=
  orWith (.vectorSelector upSelector) (.vectorSelector downSelector) c

section

variable {c : Clause} (hc : ∀ label ∈ c.labels, isClauseLabel label = true)

include hc

theorem readsQuery_downOrUp :
  ReadsQuery wordParser wordRules clauseText (readSelector (fun _ => false)) defaultFilter.labels
    (optimizeGroups twoAccounts) (downOrUp c)
  := by
  obtain ⟨hdown, hdown'⟩ := operand_metric isMetricName_down
  obtain ⟨hup, hup'⟩ := operand_metric isMetricName_up
  apply readsQuery_textParser
  apply (readableChain_orAll (readableChain_operand hdown hdown') rfl hup hup' rfl [c] _).1
  rwa [List.forall_mem_singleton]

theorem parse_exprString_downOrUp :
  wordParser.parseExpr (wordParser.exprString (downOrUp c)) = .ok (downOrUp c)
  := by
  have hread : (downOrUp c).updateSelectors (readSelector (fun _ => false)) = downOrUp c := by
    rw [downOrUp, orWith, Expr.updateSelectors, Expr.updateSelectors, Expr.updateSelectors,
      downSelector, upSelector, readSelector_metricSelector, readSelector_metricSelector]
  have hreparse := (readsQuery_downOrUp hc).reparses
  rwa [hread] at hreparse

end

theorem exprString_downOrUp (c : Clause) :
  wordParser.exprString (downOrUp c)
    = str "down" ++ clauseText (some ⟨.manyToMany, c.labels, c.on, []⟩) ++ str "up"
  := by
  have htext : ∀ name,
      exprText (fun _ => false) (.vectorSelector (metricSelector name)) = name := by
    intro name
    rw [exprText, selectorText_eq, sortedMatchers_metricSelector]
    apply List.append_nil
  have hor : wordParser.exprString (downOrUp c)
      = exprText (fun _ => false) (.vectorSelector downSelector)
        ++ clauseText (some ⟨.manyToMany, c.labels, c.on, []⟩)
        ++ exprText (fun _ => false) (.vectorSelector upSelector) := rfl
  rw [hor, downSelector, upSelector, htext, htext]

/-- For every list of clauses: the rewritten queries of all queries with these clauses, of all
parsers, configurations and tenants of several accounts, mean the tree wherever the tenants can
be injected, exactly if every clause compares all labels but the metric name. -/
theorem meansTree_iff_plain (clauses : List Clause)
    (hclauses : ∀ c ∈ clauses, ∀ label ∈ c.labels, isClauseLabel label = true) :
  (∀ {P : Parser} {R : Rules} {clauseText : Option VectorMatching → GoString}
      {reorder : VectorSelector → VectorSelector} (query : GoString) (expr : Expr),
      P.parseExpr query = .ok expr → expr.type R = .vector → expr.orClauses = clauses →
    ∀ (cfg : FilterConfig) (tenants : List VMTenant) (hne : tenants ≠ []), ¬ OneAccount tenants →
      ReadsQuery P R clauseText reorder cfg.labels (optimizeGroups tenants) expr →
      (MeansTree P query expr tenants cfg hne ↔ Injectable R cfg.labels expr tenants)) ↔
    ∀ c ∈ clauses, c.Plain
  := by
  constructor
  · intro hall c hc
    by_contra hplain
    obtain ⟨before, after, rfl⟩ := List.append_of_mem hc
    obtain ⟨label, hlabel, hnot⟩ := exists_not_meansTree hclauses hplain
    apply hnot
    apply (hall _ _ (parse_exprString_markedQuery hlabel hclauses)
      (readableChain_markedQuery hlabel hclauses).2 (orClauses_markedQuery _ before c after) _ _ _ _
      (readsQuery_markedQuery hlabel hclauses)).mpr
    · apply injectable_twoAccounts
    · decide
  · rintro hplain P R clauseText reorder query expr hquery htype rfl cfg tenants hne htwo hP
    apply meansTree_of_plain hquery htype hplain cfg hne htwo hP

/-- The query `down or up` for the accounts `1` and `2`. -/
theorem plain_or_means_tree :
  wordParser.parseExpr (str "down or up") = .ok (downOrUp ⟨false, []⟩) ∧
    MeansTree wordParser (str "down or up") (downOrUp ⟨false, []⟩) twoAccounts defaultFilter
      twoAccounts_ne_nil
  := by
  have htext : wordParser.exprString (downOrUp ⟨false, []⟩) = str "down or up" := by
    rw [exprString_downOrUp]
    decide +kernel
  have hc : ∀ label ∈ (⟨false, []⟩ : Clause).labels, isClauseLabel label = true := by
    rintro label ⟨⟩
  have hquery := parse_exprString_downOrUp hc
  rw [htext] at hquery
  use hquery
  apply ((meansTree_iff_plain [⟨false, []⟩] (by decide)).mpr (by decide) _ _ hquery rfl rfl _ _ _
    (by decide) (readsQuery_downOrUp hc)).mpr
  apply injectable_twoAccounts

/-! ### A sample that is hidden -/

/-- The clause `on (job)`. -/
def onJob : Clause := ⟨true, [str "job"]⟩

theorem isClauseLabel_job :
  ∀ label ∈ onJob.labels, isClauseLabel label = true
  := by
  decide +kernel

/-- A vector selector for an account as it is read: the metric name is the last matcher. -/
def readFor (account : GoString) (vs : VectorSelector) : Expr :=
  .vectorSelector
    { vs with labelMatchers := ⟨.equal, str "vm_account_id", account⟩ :: vs.labelMatchers }

/-- The rewritten query for the accounts `1` and `2`, grouped from the left. -/
def downOrUpRead : Expr :=
  orWith (readFor (str "2") upSelector)
    (.binaryExpr .lor
      (orWith (readFor (str "1") upSelector) (readFor (str "1") downSelector) onJob)
      (readFor (str "2") downSelector) (some plainMatching) false)
    onJob

/-- The text of the rewritten query. -/
def downOrUpText : GoString :=
  str "down\x7bvm_account_id=\"1\"\x7d or on (job) up\x7bvm_account_id=\"1\"\x7d"
    ++ str " or down\x7bvm_account_id=\"2\"\x7d or on (job) up\x7bvm_account_id=\"2\"\x7d"

theorem readSelector_forAccount (name account : GoString) :
  Expr.vectorSelector (readSelector (fun _ => false)
      (injectGroup defaultFilter.labels (wholeAccount account) (metricSelector name)))
    = readFor account (metricSelector name)
  := by
  rw [readSelector, wholeAccount, sortedMatchers_forAccount]
  rfl

/-- How the rewritten query is read. -/
theorem readSecure_downOrUp :
  readSecure (readSelector (fun _ => false)) defaultFilter.labels (downOrUp onJob)
    (wholeAccount (str "1")) [wholeAccount (str "2")] = downOrUpRead
  := by
  have hoperand : ∀ account, readOperand (readSelector (fun _ => false)) defaultFilter.labels
      (copyOf (readSelector (fun _ => false)) (downOrUp onJob) [wholeAccount (str "2")])
      (wholeAccount account)
      = orWith (readFor account upSelector) (readFor account downSelector) onJob := by
    intro account
    have hread : ∀ name, Expr.vectorSelector (readSelector (fun _ => false)
        (injectGroup defaultFilter.labels (wholeAccount account)
          (readSelector (fun _ => false) (metricSelector name))))
        = readFor account (metricSelector name) := by
      intro name
      rw [readSelector_metricSelector, readSelector_forAccount]
    rw [copyOf, if_neg (List.cons_ne_nil _ _), upSelector, downSelector, ← hread, ← hread]
    rfl
  rw [readSecure, List.foldl_cons, List.foldl_nil, hoperand, hoperand]
  rfl

/-- The text for the accounts `1` and `2`. -/
theorem exprString_secure_downOrUp :
  wordParser.exprString (.binaryExpr .lor (forAccount (str "1") (downOrUp onJob))
    (forAccount (str "2") (downOrUp onJob)) none false) = downOrUpText
  := by
  have htext : ∀ account, exprText (fun _ => false) (forAccount account (downOrUp onJob))
      = exprText (fun _ => false)
          (forAccount account (.vectorSelector (metricSelector (str "down"))))
        ++ clauseText (some ⟨.manyToMany, onJob.labels, onJob.on, []⟩)
        ++ exprText (fun _ => false)
          (forAccount account (.vectorSelector (metricSelector (str "up")))) := fun _ => rfl
  have hor : ∀ lhs rhs, wordParser.exprString (.binaryExpr .lor lhs rhs none false)
      = exprText (fun _ => false) lhs ++ clauseText none ++ exprText (fun _ => false) rhs :=
    fun _ _ => rfl
  rw [hor, htext, htext]
  simp only [exprText_forAccount]
  decide +kernel

theorem ne_down_of_mem_upEngine :
  ∀ s ∈ upEngine.series, s.labels metricName ≠ str "down"
  := by
  rintro s (rfl | rfl)
  · decide
  · decide

/-- With an account injected, the query has the sample of the account. -/
theorem groupSamples_downOrUp {account : GoString} (h : account = str "1" ∨ account = str "2") :
  groupSamples upEngine 0 defaultFilter (downOrUp onJob) (wholeAccount account)
    = {upSample account}
  := by
  have hquery : injectTenantToExpression (downOrUp onJob) (wholeAccount account)
      defaultFilter.labels
      = orWith (forAccount account (.vectorSelector upSelector))
        (forAccount account (.vectorSelector downSelector)) onJob := rfl
  have hdown : samplesAt upEngine 0 (forAccount account (.vectorSelector downSelector)) = ∅ := by
    apply selectInstant_down ne_down_of_mem_upEngine
    apply List.mem_append_left _ (List.mem_append_left _ List.mem_cons_self)
  rw [groupSamples, hquery, orWith, samplesAt_or_matching, hdown, KeyedUnion.empty_orElse,
    ← selectInstant_up h]
  rfl

theorem sampleKey_upSample_ne :
  sampleKey (upSample (str "1")) ≠ sampleKey (upSample (str "2"))
  := by
  intro hkey
  have hvalue := congrFun hkey (str "vm_account_id")
  revert hvalue
  decide

/-- What is read selects what is written. -/
theorem samplesAt_readFor {account : GoString} (h : account = str "1" ∨ account = str "2") :
  samplesAt upEngine 0 (readFor account upSelector) = {upSample account}
  := by
  have hsame := injects_read account upSelector (readable_metricSelector isMetricName_up)
  rw [Function.comp_apply, Function.comp_apply, upSelector, readSelector_metricSelector] at hsame
  rw [← selectInstant_up h, upSelector, ← readSelector_forAccount]
  apply hsame.selectInstant_eq

/-- The series have no label `job`. -/
theorem signature_onJob_upSeries (account : GoString) :
  signature (some ⟨.manyToMany, onJob.labels, onJob.on, []⟩) (upSeries account) = fun _ => []
  := by
  have hon : signature (some ⟨.manyToMany, onJob.labels, onJob.on, []⟩) (upSeries account)
      = restrictTo [str "job"] (upSeries account) := rfl
  funext name
  rw [hon, restrictTo]
  split
  · rename_i hname
    rw [List.mem_singleton.mp hname]
    rfl
  · rfl

/-- For the accounts `1` and `2` the query `down or on (job) up` has the series of both, and the
text it is rewritten to is read without that of the account `2`. -/
theorem second_account_hidden :
  buildSecureQuery wordParser (str "down or on (job) up") twoAccounts defaultFilter
      = .ok downOrUpText ∧
    wordParser.parseExpr downOrUpText = .ok downOrUpRead ∧
    upSample (str "2") ∈ samplesAt upEngine 0 (createSecureORExpression wordParser
      (downOrUp onJob) twoAccounts defaultFilter twoAccounts_ne_nil) ∧
    upSample (str "2") ∉ samplesAt upEngine 0 downOrUpRead
  := by
  have hP := readsQuery_downOrUp isClauseLabel_job
  have hreparse := parse_exprString_downOrUp isClauseLabel_job
  have hne : upSample (str "2") ≠ upSample (str "1") :=
    fun heq => sampleKey_upSample_ne (congrArg sampleKey heq.symm)
  refine ⟨?_, ?_, ?_, ?_⟩
  · have htext : wordParser.exprString (downOrUp onJob) = str "down or on (job) up" := by
      rw [exprString_downOrUp]
      decide +kernel
    have hquery := hreparse
    rw [htext] at hquery
    rw [buildSecureQuery_of_parse hquery twoAccounts_ne_nil, secureExprOf_twoAccounts hreparse,
      exprString_secure_downOrUp]
  · have haccepted := (acceptedFor_iff _ hP.accepts _).mpr (injectable_twoAccounts (downOrUp onJob))
    rw [optimizeGroups_twoAccounts] at haccepted
    rw [← exprString_secure_downOrUp, ← secureExprOf_twoAccounts hreparse,
      optimizeGroups_twoAccounts, hP.parse_secureExprOf optimizeGroups_twoAccounts]
    use Or.inr rfl, haccepted
    apply readSecure_downOrUp.symm
  · rw [mem_samplesAt_createSecureORExpression hP.reparse, optimizeGroups_twoAccounts,
      List.map_cons, List.map_cons, List.map_nil]
    right
    constructor
    · intro y hy
      rw [Set.mem_singleton_iff.mp ((groupSamples_downOrUp (Or.inl rfl)).le hy)]
      apply sampleKey_upSample_ne
    · left
      apply (groupSamples_downOrUp (Or.inr rfl)).ge rfl
  · have hdown : ∀ account, samplesAt upEngine 0 (readFor account downSelector) = ∅ := by
      intro account
      apply selectInstant_down ne_down_of_mem_upEngine
      apply List.mem_cons_of_mem _ List.mem_cons_self
    rw [downOrUpRead, orWith, samplesAt_or_matching, samplesAt_or_matching, orWith,
      samplesAt_or_matching, hdown, hdown, KeyedUnion.orElse_empty, KeyedUnion.empty_orElse,
      samplesAt_readFor (Or.inl rfl), samplesAt_readFor (Or.inr rfl),
      KeyedUnion.mem_orElse_singleton_iff hne, not_not]
    apply (signature_onJob_upSeries _).trans (signature_onJob_upSeries _).symm

end

end Tenant

end VmProxyAuth
