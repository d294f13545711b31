import MetadataCatalog.Proofs.Catalog.Changes
import MetadataCatalog.Proofs.Catalog.QueryParts

/-!
# Phrases after a dash

A term that begins with a dash is a word, whatever follows the dash. So a phrase between quotes
after a dash falls apart at its blanks: the piece in front is excluded, and the others are words or
excluded words of their own.

- **Pieces**: none of them is a phrase (`phrases_negated`), and a phrase of a single word is excluded
  as it stands (`negated_of_unbroken`).
- **Restraint**: each plain piece has among its tokens those of an excluded piece (`Restrains`). Then
  the plain pieces find nothing more (`Restrains.matches_append_iff`), and what mentions the phrase
  is excluded (`Restrains.not_mentions`).
- **Searches**: a piece that is not restrained finds a record that should not be found. So a phrase
  after a dash narrows every search exactly when its pieces are restrained
  (`narrowsSearches_iff_restrains`).
-/

namespace MetadataCatalog

namespace Terms

/-! ## §1 Pieces -/

/-- What a phrase between quotes after a dash is taken for. -/
def negated (phrase : String) : Terms :=
  ofText ("-\"" ++ phrase ++ "\"")

theorem toList_negation (phrase : String) :
    ("-\"" ++ phrase ++ "\"").toList = '-' :: '"' :: (phrase.toList ++ ['"']) := by
  simp

theorem phrases_withWord (word : List Char) (terms : Terms) :
    (withWord word terms).phrases = terms.phrases := by
  unfold withWord
  split <;> rfl

/-- Without quotes there are no phrases. -/
theorem phrases_ofChars {cs : List Char} (h : '"' ∉ cs) : (ofChars cs).phrases = [] := by
  induction cs using scanInduction with
  | nil =>
    rw [ofChars_nil]
    rfl
  | blank c cs hc ih =>
    rw [ofChars_blank hc]
    exact ih fun hmem => h (List.mem_cons_of_mem c hmem)
  | unclosed between _ => exact absurd List.mem_cons_self h
  | phrase between rest _ _ => exact absurd List.mem_cons_self h
  | word c word rest hc hquote hword hrest ih =>
    rw [ofChars_word hc hquote hword hrest, phrases_withWord]
    exact ih fun hmem => h (List.mem_cons_of_mem c (List.mem_append_right word hmem))

theorem phrases_ofText {query : String} (h : '"' ∉ query.toList) : (ofText query).phrases = [] :=
  phrases_ofChars h

/-- Behind a word, a quote at the end begins no phrase if it begins none in what follows the word. -/
theorem phrases_word_append_quote {c : Char} {word rest : List Char} (hc : Text.isBlank c = false)
    (hquote : c ≠ '"') (hword : word.all (!Text.isBlank ·) = true) (hrest : Breaks rest)
    (h : (ofChars (rest ++ ['"'])).phrases = []) :
    (ofChars (c :: (word ++ (rest ++ ['"'])))).phrases = [] := by
  cases rest with
  | nil =>
    -- the quote is the last character of the word
    have hlonger : (word ++ ['"']).all (!Text.isBlank ·) = true := by
      rw [List.all_append, hword]
      rfl
    have hone := ofChars_word hc hquote hlonger breaks_nil
    rw [List.append_nil] at hone
    rw [List.nil_append, hone, phrases_withWord, ofChars_nil]
    rfl
  | cons b rest =>
    have hmore : Breaks (b :: rest ++ ['"']) := breaks_cons (hrest b rfl) (rest ++ ['"'])
    rw [ofChars_word hc hquote hword hmore, phrases_withWord, h]

/-- A quote at the end of a query begins no phrase. -/
theorem phrases_ofChars_append_quote {cs : List Char} (h : '"' ∉ cs) :
    (ofChars (cs ++ ['"'])).phrases = [] := by
  induction cs using scanInduction with
  | nil =>
    rw [List.nil_append, ofChars_unclosed List.not_mem_nil]
    rfl
  | blank c cs hc ih =>
    rw [List.cons_append, ofChars_blank hc]
    exact ih fun hmem => h (List.mem_cons_of_mem c hmem)
  | unclosed between _ => exact absurd List.mem_cons_self h
  | phrase between rest _ _ => exact absurd List.mem_cons_self h
  | word c word rest hc hquote hword hrest ih =>
    rw [List.cons_append, List.append_assoc]
    apply phrases_word_append_quote hc hquote hword hrest
    exact ih fun hmem => h (List.mem_cons_of_mem c (List.mem_append_right word hmem))

/-- **No phrase** comes of a phrase after a dash. -/
theorem phrases_negated {phrase : String} (h : '"' ∉ phrase.toList) :
    (negated phrase).phrases = [] := by
  -- the first piece is a word up to the first blank, the quote in front of it included
  rw [negated, ofText, toList_negation,
    ← List.takeWhile_append_dropWhile (p := (!Text.isBlank ·)) (l := phrase.toList),
    List.append_assoc, ← List.cons_append]
  apply phrases_word_append_quote (by decide) (by decide)
  · rw [List.all_cons, List.all_takeWhile]
    rfl
  · exact breaks_dropWhile phrase.toList
  · exact phrases_ofChars_append_quote fun hmem =>
      h ((List.dropWhile_sublist _).mem hmem)

/-- A single word is excluded as it stands, with its quotes. -/
theorem negated_of_unbroken {phrase : String}
    (h : phrase.toList.all (!Text.isBlank ·) = true) :
    negated phrase = ⟨[], [], ["\"" ++ phrase ++ "\""]⟩ := by
  have hword : ('"' :: (phrase.toList ++ ['"'])).all (!Text.isBlank ·) = true := by
    rw [List.all_cons, List.all_append, h]
    rfl
  have hone := @ofChars_word '-' _ [] (by decide) (by decide) hword breaks_nil
  have htext : String.ofList ('"' :: (phrase.toList ++ ['"'])) = "\"" ++ phrase ++ "\"" := by
    apply String.toList_inj.mp
    simp
  rw [List.append_nil, ofChars_nil] at hone
  rw [negated, ofText, toList_negation, hone, ← htext]
  rfl

/-- A phrase after a dash and a blank, behind a query without quotes. -/
theorem ofText_append_negation {query : String} (h : '"' ∉ query.toList) (phrase : String) :
    ofText (query ++ " -\"" ++ phrase ++ "\"") = (ofText query).append (negated phrase) := by
  have hchars : (query ++ " -\"" ++ phrase ++ "\"").toList =
      query.toList ++ ' ' :: ("-\"" ++ phrase ++ "\"").toList := by
    simp
  rw [ofText, hchars, ofChars_append h (by decide)]
  rfl

/-- A NUL in a phrase after a dash is in one of the pieces. -/
theorem nul_not_mem_pieces_iff {phrase : String} (hphrase : '"' ∉ phrase.toList) :
    (∀ s ∈ (negated phrase).words ++ (negated phrase).excluded, Char.ofNat 0 ∉ s.toList) ↔
      Char.ofNat 0 ∉ phrase.toList := by
  have hnul : ∀ cs : List Char, Char.ofNat 0 ∈ cs.filter (!isSeparator ·) ↔ Char.ofNat 0 ∈ cs := by
    intro cs
    rw [List.mem_filter]
    exact and_iff_left (by decide)
  have htext : Char.ofNat 0 ∈ ("-\"" ++ phrase ++ "\"").toList ↔ Char.ofNat 0 ∈ phrase.toList := by
    rw [toList_negation]
    simp
  have hall : (negated phrase).all = (negated phrase).words ++ (negated phrase).excluded := by
    rw [all, phrases_negated hphrase, List.append_nil]
  rw [← htext, ← hnul, separates_filter.mem_iff, ← hall]
  simp only [hnul]
  constructor
  · rintro h ⟨s, hs, hmem⟩
    exact h s hs hmem
  · intro h s hs hmem
    exact h ⟨s, hs, hmem⟩

/-! ## §2 Restraint -/

/-- No excluded term is mentioned. -/
def Admits (terms : Terms) (r : CatalogRecord) : Prop :=
  ∀ term ∈ terms.excluded, ¬ r.Mentions term

instance (terms : Terms) (r : CatalogRecord) : Decidable (terms.Admits r) :=
  inferInstanceAs (Decidable (∀ _ ∈ _, _))

/-- Among the tokens of each word, if it has any, are those of an excluded term. -/
def Restrains (terms : Terms) : Prop :=
  ∀ word ∈ terms.words, Tokens.ofText word ≠ [] →
    ∃ term ∈ terms.excluded, Tokens.ofText term ≠ [] ∧ Tokens.ofText term <:+: Tokens.ofText word

instance (terms : Terms) : Decidable terms.Restrains :=
  inferInstanceAs (Decidable (∀ _ ∈ _, _))

variable {terms more : Terms} {r : CatalogRecord}

theorem restrains_of_words_eq_nil (h : terms.words = []) : terms.Restrains := by
  intro word hword
  rw [h] at hword
  cases hword

/-- What is admitted mentions no word that is restrained. -/
theorem Restrains.not_mentions_word (h : terms.Restrains) (hr : terms.Admits r) {word : String}
    (hword : word ∈ terms.words) : ¬ r.Mentions word := by
  rintro ⟨hne, hinfix⟩
  obtain ⟨term, hterm, hsome, hin⟩ := h word hword hne
  exact hr term hterm ⟨hsome, hin.trans hinfix⟩

theorem matches_append_iff (hphrases : terms.phrases = []) (hmore : more.phrases = []) :
    (terms.append more).Matches r ↔
      (∃ word ∈ terms.words ++ more.words, r.Mentions word) ∧ terms.Admits r ∧ more.Admits r := by
  have hboth : (terms.append more).phrases = [] := by
    rw [append, hphrases, hmore, List.append_nil]
  rw [Matches, if_pos hboth]
  exact and_congr_right fun _ => List.forall_mem_append

/-- **Restrained words add nothing** to what matches. -/
theorem Restrains.matches_append_iff (h : more.Restrains) (hphrases : terms.phrases = [])
    (hmore : more.phrases = []) :
    (terms.append more).Matches r ↔ terms.Matches r ∧ more.Admits r := by
  rw [Terms.matches_append_iff hphrases hmore, Matches, if_pos hphrases]
  constructor
  · rintro ⟨⟨word, hword, hmentions⟩, hadmits, hr⟩
    rcases List.mem_append.mp hword with hword | hword
    · exact ⟨⟨⟨word, hword, hmentions⟩, hadmits⟩, hr⟩
    · exact absurd hmentions (h.not_mentions_word hr hword)
  · rintro ⟨⟨⟨word, hword, hmentions⟩, hadmits⟩, hr⟩
    exact ⟨⟨word, List.mem_append_left _ hword, hmentions⟩, hadmits, hr⟩

/-- A text that is a plain word of the terms matches, unless the word is restrained. -/
theorem matches_word {word : String} (hphrases : terms.phrases = []) (hmore : more.phrases = [])
    (hnone : terms.excluded = []) (hword : word ∈ more.words) (hne : Tokens.ofText word ≠ [])
    (hfree : ¬ ∃ term ∈ more.excluded, Tokens.ofText term ≠ [] ∧
      Tokens.ofText term <:+: Tokens.ofText word) (dataset : String) (number : Int) :
    (terms.append more).Matches ⟨word, dataset, number⟩ := by
  rw [Terms.matches_append_iff hphrases hmore]
  refine ⟨⟨word, List.mem_append_right _ hword, hne, List.infix_rfl⟩, ?_, ?_⟩
  · intro term hterm
    rw [hnone] at hterm
    cases hterm
  · rintro term hterm ⟨hsome, hin⟩
    exact hfree ⟨term, hterm, hsome, hin⟩

/-- **Restrained pieces exclude the phrase.** -/
theorem Restrains.not_mentions {phrase : String} (h : (negated phrase).Restrains)
    (hphrase : '"' ∉ phrase.toList) (hr : (negated phrase).Admits r) : ¬ r.Mentions phrase := by
  rintro ⟨hne, hinfix⟩
  have htokens : Tokens.ofChars ("-\"" ++ phrase ++ "\"").toList = Tokens.ofText phrase := by
    rw [toList_negation, separates_tokens.cons (by decide), separates_tokens.cons (by decide),
      separates_tokens.append (by decide), separates_tokens.nil, List.append_nil]
    rfl
  -- some piece has tokens, and an excluded one does if that is a word
  have hexcluded : ∃ term ∈ (negated phrase).excluded, Tokens.ofText term ≠ [] := by
    obtain ⟨token, htoken⟩ := List.exists_mem_of_ne_nil _ hne
    rw [← htokens, separates_tokens.mem_iff] at htoken
    obtain ⟨s, hs, htoken⟩ := htoken
    have hsome : Tokens.ofText s ≠ [] := List.ne_nil_of_mem htoken
    change s ∈ (negated phrase).all at hs
    rw [all, phrases_negated hphrase, List.append_nil, List.mem_append] at hs
    rcases hs with hs | hs
    · obtain ⟨term, hterm, hterms, -⟩ := h s hs hsome
      exact ⟨term, hterm, hterms⟩
    · exact ⟨s, hs, hsome⟩
  obtain ⟨term, hterm, hsome⟩ := hexcluded
  have hin : Tokens.ofText term <:+: Tokens.ofText phrase := by
    rw [← htokens]
    exact separates_tokens.infix_of_mem (List.mem_append_right _ hterm)
  exact hr term hterm ⟨hsome, hin.trans hinfix⟩

/-! ## §3 Searches for words -/

/-- There is no NUL in words and excluded terms, and the expression is not too deep. -/
structure IsSearchable (terms : Terms) : Prop where
  nul_not_mem : ∀ s ∈ terms.words ++ terms.excluded, Char.ofNat 0 ∉ s.toList
  depth_le : (if 2 ≤ terms.words.length then 1 else 0) + terms.excluded.length ≤
    Expression.depthLimit

/-- With fewer terms a query can be searched for, too. -/
theorem IsSearchable.of_append (h : (terms.append more).IsSearchable) : terms.IsSearchable where
  nul_not_mem s hs := by
    apply h.nul_not_mem
    simp only [append, List.mem_append] at hs ⊢
    exact hs.imp Or.inl Or.inl
  depth_le := by
    have hdepth := h.depth_le
    simp only [append, List.length_append] at hdepth
    split at hdepth <;> split <;> omega

/-- A single word can be searched for with a phrase after a dash, unless there is a NUL or the pieces
are too many. -/
theorem isSearchable_append_negated {word phrase : String} (hword : Char.ofNat 0 ∉ word.toList)
    (hphrase : '"' ∉ phrase.toList) (hnul : Char.ofNat 0 ∉ phrase.toList)
    (hfew : (negated phrase).excluded.length < 256) :
    (append ⟨[word], [], []⟩ (negated phrase)).IsSearchable where
  nul_not_mem s hs := by
    simp only [append, List.cons_append, List.nil_append, List.mem_cons] at hs
    rcases hs with rfl | hs
    · exact hword
    · exact (nul_not_mem_pieces_iff hphrase).mpr hnul s hs
  depth_le := by
    have hlevel : (if 2 ≤ (append ⟨[word], [], []⟩ (negated phrase)).words.length
        then 1 else 0) ≤ 1 := by split <;> omega
    rw [append, List.nil_append, Expression.depthLimit]
    exact Nat.add_le_add hlevel (Nat.le_of_lt_succ hfew)

/-- What can be searched for with a phrase after a dash has restrained pieces, if those without a
NUL are that are not too many. -/
theorem IsSearchable.restrains {phrase : String}
    (h : (terms.append (negated phrase)).IsSearchable) (hphrase : '"' ∉ phrase.toList)
    (hwords : terms.words ≠ []) (hrestrains : Char.ofNat 0 ∉ phrase.toList →
      (negated phrase).excluded.length < 256 → (negated phrase).Restrains) :
    (negated phrase).Restrains := by
  by_cases hplain : (negated phrase).words = []
  · exact restrains_of_words_eq_nil hplain
  · apply hrestrains
    · rw [← nul_not_mem_pieces_iff hphrase]
      intro s hs
      apply h.nul_not_mem
      simp only [append, List.mem_append] at hs ⊢
      exact hs.imp Or.inr Or.inr
    · -- the words on either side are joined, which takes one level
      have hdepth := h.depth_le
      have htwo : 2 ≤ (terms.append (negated phrase)).words.length := by
        have hfirst := List.length_pos_iff.mpr hwords
        have hsecond := List.length_pos_iff.mpr hplain
        rw [append, List.length_append]
        omega
      have hboth : (terms.append (negated phrase)).excluded.length =
          terms.excluded.length + (negated phrase).excluded.length := List.length_append
      rw [if_pos htwo, hboth, Expression.depthLimit] at hdepth
      omega

end Terms

namespace Collection

variable {query : String} {c found : Collection}

/-- **A search for words** succeeds exactly when they can be searched for. -/
theorem search_of_words_iff (hphrases : (Terms.ofText query).phrases = [])
    (hwords : (Terms.ofText query).words ≠ []) :
    c.search query = .ok found ↔ (Terms.ofText query).IsSearchable ∧
      c.select (.ofTerms (Terms.ofText query)) = found := by
  have hrequired : (Expression.ofTerms (Terms.ofText query)).required =
      (Terms.ofText query).words := by
    rw [Expression.required_ofTerms, if_pos hphrases]
  have hquery : Expression.ofQuery query = .ok (.ofTerms (Terms.ofText query)) := by
    apply Expression.ofQuery_eq_ok_iff.mpr
    rw [Terms.ofText_trim, hrequired]
    exact ⟨hwords, rfl⟩
  rw [search_eq_ok_iff hquery, Expression.texts, hrequired, Expression.excluded_ofTerms,
    Store.depth_ofTerms, if_pos hphrases]
  constructor
  · rintro ⟨hnul, hdepth, hselect⟩
    exact ⟨⟨hnul, hdepth⟩, hselect⟩
  · rintro ⟨⟨hnul, hdepth⟩, hselect⟩
    exact ⟨hnul, hdepth, hselect⟩

end Collection

/-! ## §4 Searches with a phrase after a dash -/

namespace Store

open Terms (negated)

/-- Whatever words are searched for, and wherever: with the phrase after a dash behind them, nothing
is found that would not be found without, and nothing that mentions the phrase. -/
def NarrowsSearches (phrase : String) : Prop :=
  ∀ (s : Store) (w w' : Workspace) (query : String) (found : Collection),
    '"' ∉ query.toList → (Terms.ofText query).words ≠ [] →
    (s.search (query ++ " -\"" ++ phrase ++ "\"")).run w = (.ok found, w') →
    ∀ r ∈ found,
      (∃ found', (s.search query).run w = (.ok found', w') ∧ r ∈ found') ∧ ¬ r.Mentions phrase

section Searches

variable {phrase query : String} {c found : Collection}

/-- What is searched for with a phrase after a dash. -/
theorem search_negation_iff (hphrase : '"' ∉ phrase.toList) (hquery : '"' ∉ query.toList)
    (hwords : (Terms.ofText query).words ≠ []) :
    c.search (query ++ " -\"" ++ phrase ++ "\"") = .ok found ↔
      ((Terms.ofText query).append (negated phrase)).IsSearchable ∧
        c.select (.ofTerms ((Terms.ofText query).append (negated phrase))) = found := by
  have hterms := Terms.ofText_append_negation hquery phrase
  rw [← hterms]
  apply Collection.search_of_words_iff
  · rw [hterms, Terms.append, Terms.phrases_negated hphrase, List.append_nil]
    exact Terms.phrases_ofText hquery
  · rw [hterms]
    exact List.append_ne_nil_of_left_ne_nil hwords _

/-- What is found among restrained pieces is what is found without them and is admitted. -/
theorem select_append_perm (hphrase : '"' ∉ phrase.toList) (hquery : '"' ∉ query.toList)
    (hrestrains : (negated phrase).Restrains) (c : Collection) :
    (c.select (.ofTerms ((Terms.ofText query).append (negated phrase)))).Perm
      ((c.select (.ofTerms (Terms.ofText query))).filter (negated phrase).Admits) := by
  -- the records are picked first, whatever their ranks
  have hfilter : c.filter ((Terms.ofText query).append (negated phrase)).Matches =
      (c.filter (Terms.ofText query).Matches).filter (negated phrase).Admits := by
    rw [List.filter_filter]
    refine List.filter_congr fun r _ => ?_
    rw [Bool.eq_iff_iff, Bool.and_eq_true, decide_eq_true_eq, decide_eq_true_eq,
      decide_eq_true_eq, and_comm]
    exact hrestrains.matches_append_iff (Terms.phrases_ofText hquery)
      (Terms.phrases_negated hphrase)
  have hperm := c.select_perm ((Terms.ofText query).append (negated phrase))
  rw [hfilter] at hperm
  exact hperm.trans ((c.select_perm (Terms.ofText query)).filter _).symm

/-- Restrained pieces narrow every search, and so do pieces that make every search fail. -/
theorem narrowsSearches_of_restrains (hphrase : '"' ∉ phrase.toList)
    (h : Char.ofNat 0 ∉ phrase.toList → (negated phrase).excluded.length < 256 →
      (negated phrase).Restrains) : NarrowsSearches phrase := by
  intro s w w' query found hquery hwords hrun r hr
  -- something is found, so it is a search among the records of a collection
  obtain ⟨db, hread, hask⟩ := Connection.exists_of_query hrun
  obtain ⟨c, hc, hname, hsearch⟩ := Database.exists_of_search hask hr
  obtain ⟨hsearchable, rfl⟩ := (search_negation_iff hphrase hquery hwords).mp hsearch
  have hrestrains := hsearchable.restrains hphrase hwords h
  rw [(select_append_perm hphrase hquery hrestrains c).mem_iff, List.mem_filter,
    decide_eq_true_eq] at hr
  refine ⟨⟨c.select (.ofTerms (Terms.ofText query)), ?_, hr.1⟩,
    hrestrains.not_mentions hphrase hr.2⟩
  have hplain : c.search query = .ok (c.select (.ofTerms (Terms.ofText query))) :=
    (Collection.search_of_words_iff (Terms.phrases_ofText hquery) hwords).mpr
      ⟨hsearchable.of_append, rfl⟩
  have hanswer : db.search s.collection query = .ok (c.select (.ofTerms (Terms.ofText query))) :=
    (Database.search_of_service hc hname query).trans hplain
  exact (Work.run_bind_ok hread _).trans (congrArg (·, w') hanswer)

/-- A piece that is not restrained is found where it should not be: alone in a text, after a word
without tokens. -/
theorem restrains_of_narrowsSearches (hphrase : '"' ∉ phrase.toList) (h : NarrowsSearches phrase)
    (hnul : Char.ofNat 0 ∉ phrase.toList) (hfew : (negated phrase).excluded.length < 256) :
    (negated phrase).Restrains := by
  intro word hword hne
  by_contra hnone
  have hbang : Terms.ofText "!" = ⟨["!"], [], []⟩ := by decide +kernel
  have hquote : '"' ∉ "!".toList := by decide
  have hwords : (Terms.ofText "!").words ≠ [] := by
    rw [hbang]
    exact List.cons_ne_nil _ _
  have hsearchable : ((Terms.ofText "!").append (negated phrase)).IsSearchable := by
    rw [hbang]
    exact Terms.isSearchable_append_negated (by decide) hphrase hnul hfew
  have hmatches : ((Terms.ofText "!").append (negated phrase)).Matches ⟨word, "/a/b/c", 1⟩ := by
    apply Terms.matches_word (Terms.phrases_ofText hquote) (Terms.phrases_negated hphrase)
    · rw [hbang]
    · exact hword
    · exact hne
    · exact hnone
  -- the record is found with the phrase behind the query, and so it should be without
  obtain ⟨w, db, -, hserves, hc⟩ := run_insertAll spareCollection_serves rfl [⟨word, "/a/b/c", 1⟩]
  have hrun := run_search hserves hc (by decide) ("!" ++ " -\"" ++ phrase ++ "\"")
  rw [(search_negation_iff hphrase hquote hwords).mpr ⟨hsearchable, rfl⟩] at hrun
  have hmem := (Collection.select_perm ([] ++ [⟨word, "/a/b/c", 1⟩]) _).mem_iff.mpr
    (List.mem_filter.mpr ⟨List.mem_singleton_self _, decide_eq_true hmatches⟩)
  obtain ⟨⟨found, hplain, hr⟩, -⟩ := h _ _ _ _ _ hquote hwords hrun _ hmem
  rw [run_search hserves hc (by decide) "!"] at hplain
  -- the word without tokens finds nothing
  obtain ⟨-, rfl⟩ := (Collection.search_of_words_iff (Terms.phrases_ofText hquote) hwords).mp
    (Prod.mk.inj hplain).1
  rw [(Collection.select_perm _ _).mem_iff, List.mem_filter, decide_eq_true_eq, hbang] at hr
  obtain ⟨other, hother, hmentions, -⟩ := hr.2.1
  rw [List.mem_singleton.mp hother] at hmentions
  exact hmentions (by decide +kernel)

/-- **A phrase after a dash** narrows every search for words exactly when its pieces are restrained,
unless there is a NUL in it or 256 pieces or more are excluded: then every search fails if there is a
plain piece. Restrained pieces take away what mentions an excluded one, and nothing else. Those of a
single word are restrained. -/
theorem narrowsSearches_iff_restrains (hphrase : '"' ∉ phrase.toList) :
    (NarrowsSearches phrase ↔ (Char.ofNat 0 ∉ phrase.toList →
      (negated phrase).excluded.length < 256 → (negated phrase).Restrains)) ∧
    ((negated phrase).Restrains → ∀ (s : Store) (w : Workspace) (db : Database) (c : Collection)
      (query : String), s.connection.Serves w db → db.collection? s.collection = some c →
      CollectionName.service s.collection = .full → '"' ∉ query.toList →
      (Terms.ofText query).words ≠ [] →
      ((Terms.ofText query).append (negated phrase)).IsSearchable →
      ∃ found found', (s.search (query ++ " -\"" ++ phrase ++ "\"")).run w = (.ok found, w) ∧
        (s.search query).run w = (.ok found', w) ∧
        found.Perm (found'.filter (negated phrase).Admits)) ∧
    (phrase.toList.all (!Text.isBlank ·) = true → (negated phrase).Restrains) := by
  refine ⟨⟨restrains_of_narrowsSearches hphrase, narrowsSearches_of_restrains hphrase⟩, ?_, ?_⟩
  · intro hrestrains s w db c query hserves hc hname hquery hwords hsearchable
    refine ⟨_, _, ?_, ?_, select_append_perm hphrase hquery hrestrains c⟩
    · rw [run_search hserves hc hname,
        (search_negation_iff hphrase hquery hwords).mpr ⟨hsearchable, rfl⟩]
    · rw [run_search hserves hc hname, (Collection.search_of_words_iff
        (Terms.phrases_ofText hquery) hwords).mpr ⟨hsearchable.of_append, rfl⟩]
  · intro hunbroken
    apply Terms.restrains_of_words_eq_nil
    rw [Terms.negated_of_unbroken hunbroken]

/-- One word with a dash inside, and several words of which the first is in the others. -/
theorem narrowsSearches_iff_restrains_words :
    NarrowsSearches "X-ray" ∧ NarrowsSearches "beam Beam sub-beam" := by
  constructor
  · apply (narrowsSearches_iff_restrains (by decide)).1.mpr
    exact fun _ _ => (narrowsSearches_iff_restrains (by decide)).2.2 (by decide +kernel)
  · apply (narrowsSearches_iff_restrains (by decide)).1.mpr
    exact fun _ _ => by decide +kernel

end Searches

/-- **What is added**: a record that a word does not find is found for a further piece of the
phrase after the dash. -/
theorem negated_phrase_adds :
    (∃ w', (do
        let _ ← spareCollection.insertAll [⟨"energy", "/a/b/c", 1⟩]
        spareCollection.search "silicon" : Action _).run withSpareCollection = (.ok [], w')) ∧
      ∃ w', (do
        let _ ← spareCollection.insertAll [⟨"energy", "/a/b/c", 1⟩]
        spareCollection.search "silicon -\"beam energy\"" : Action _).run withSpareCollection =
          (.ok [⟨"energy", "/a/b/c", 1⟩], w') := by
  have hplain : Expression.ofQuery "silicon" = .ok (.ofTerms ⟨["silicon"], [], []⟩) := by
    decide +kernel
  have hnegated : Expression.ofQuery "silicon -\"beam energy\"" =
      .ok (.ofTerms ⟨["silicon", "energy\""], [], ["\"beam"]⟩) := by decide +kernel
  constructor
  · obtain ⟨w', hrun⟩ := run_search_after_insertAll spareCollection_serves rfl (by decide)
      [⟨"energy", "/a/b/c", 1⟩] (by decide) hplain
    have hfound := Collection.select_perm [⟨"energy", "/a/b/c", 1⟩] ⟨["silicon"], [], []⟩
    rw [List.filter_cons_of_neg (by decide +kernel), List.filter_nil, List.perm_nil] at hfound
    rw [if_pos (by decide), List.nil_append, hfound] at hrun
    exact ⟨w', hrun⟩
  · obtain ⟨w', hrun⟩ := run_search_after_insertAll spareCollection_serves rfl (by decide)
      [⟨"energy", "/a/b/c", 1⟩] (by decide) hnegated
    have hfound := Collection.select_perm [⟨"energy", "/a/b/c", 1⟩]
      ⟨["silicon", "energy\""], [], ["\"beam"]⟩
    rw [List.filter_cons_of_pos (by decide +kernel), List.filter_nil, List.perm_singleton] at hfound
    rw [if_pos (by decide), List.nil_append, hfound] at hrun
    exact ⟨w', hrun⟩

end Store

end MetadataCatalog
