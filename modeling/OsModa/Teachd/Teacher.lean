import Mathlib.Data.List.DropRight
import OsModa.Base.Shortlist
import OsModa.Teachd.Knowledge

/-!
The documents that teachd puts before an agent.

The 100 documents that were updated last are scored by how many words of the context they have,
times their confidence. The best are taken while about 6000 bytes last, the first in any case.
So with a document all better ones are taken, and newer ones that are as good, and what is left
out was too long (`teach_context_best`).
-/

namespace OsModa.Teachd

open OsModa.Text OsModa.Float64

section Teacher

variable (u : Unicode) (alphanumeric : Char → Bool)

/-- `trim_matches`. -/
def trimMatches (p : Char → Bool) (s : List Char) : List Char := (s.dropWhile p).rdropWhile p

/-- Tokenize a context into keywords, without very short words. -/
def keywordsOf (context : String) : List (List Char) :=
  (((splitWhitespace u (toLowercase u context.toList)).filter fun w => 2 < byteLen w).map
    (trimMatches fun c => !alphanumeric c)).filter fun w => !w.isEmpty

/-- The text of a document that is searched. -/
def searchable (doc : KnowledgeDoc) : List Char :=
  [' '].intercalate [toLowercase u doc.title.toList, toLowercase u doc.content.toList,
    toLowercase u doc.category.toList, toLowercase u (" ".intercalate doc.tags).toList]

/-- How many keywords a document has, boosted by its confidence. -/
def relevance (keywords : List (List Char)) (doc : KnowledgeDoc) : ℚ :=
  fl ((keywords.countP fun kw => contains (searchable u doc) kw : Nat) * doc.confidence)

/-- The length of a document, with a rough overhead. -/
def docChars (doc : KnowledgeDoc) : Nat := doc.content.utf8ByteSize + doc.title.utf8ByteSize + 20

def maxChars : Nat := 6000

/-- `sort_by` of the scores, descending. -/
def relevanceKey (keywords : List (List Char)) (doc : KnowledgeDoc) : ℚᵒᵈ :=
  OrderDual.toDual (relevance u keywords doc)

/-- The documents that a context is matched with. -/
def recentDocs (order : OrderBy docKey) (db : KnowledgeDb) : List KnowledgeDoc :=
  (order.arrange db.docs.rows).take 100

/-- Query knowledge docs relevant to a given context string, and their approximate tokens. -/
def teachContext (order : OrderBy docKey) (context : String) (db : KnowledgeDb) :
    List KnowledgeDoc × Nat :=
  let docs := recentDocs order db
  let keywords := keywordsOf u alphanumeric context
  if docs.isEmpty then ([], 0)
  else if keywords.isEmpty then ([], 0)
  else
    let scored := docs.filter fun doc => 0 < relevance u keywords doc
    let ranked := (OrderBy.stable (relevanceKey u keywords)).arrange scored
    let (injected, relevant) := takeWithin docChars maxChars 0 [] ranked
    (relevant, injected / 4)

end Teacher

/-! ### What is taught -/

/-- The best documents within the budget are taught. -/
structure TeachesBest (u : Unicode) (keywords : List (List Char)) (docs : List KnowledgeDoc)
    (result : List KnowledgeDoc × Nat) : Prop where
  matching : ∀ d ∈ result.1, d ∈ docs ∧ 0 < d.confidence ∧ ∃ kw ∈ keywords, kw <:+: searchable u d
  ordered : result.1.Pairwise fun a b => relevance u keywords b ≤ relevance u keywords a
  best : ∀ a ∈ docs, ∀ b ∈ result.1,
    relevance u keywords b < relevance u keywords a ∨
      relevance u keywords b = relevance u keywords a ∧ [a, b].Sublist docs →
    a ∈ result.1
  fits : totalCost docChars result.1 ≤ maxChars ∨ result.1.length = 1
  full : ∀ a ∈ docs, 0 < relevance u keywords a → a ∉ result.1 → result.1 ≠ [] ∧
    ∃ b ∈ docs, b ∉ result.1 ∧ relevance u keywords a ≤ relevance u keywords b ∧
      maxChars < totalCost docChars (result.1 ++ [b])
  tokens : result.2 = totalCost docChars result.1 / 4

section Best

variable {u : Unicode} {keywords : List (List Char)}

/-- A document with a score has a keyword. -/
theorem matching_of_relevance {doc : KnowledgeDoc} (h : 0 < relevance u keywords doc) :
    0 < doc.confidence ∧ ∃ kw ∈ keywords, kw <:+: searchable u doc := by
  have hproduct := pos_of_fl_pos h
  have hcount : 0 < keywords.countP fun kw => contains (searchable u doc) kw := by
    refine Nat.pos_of_ne_zero fun hzero => ?_
    rw [hzero, Nat.cast_zero, zero_mul] at hproduct
    exact lt_irrefl 0 hproduct
  obtain ⟨kw, hkw, hcontains⟩ := List.countP_pos_iff.mp hcount
  exact ⟨pos_of_mul_pos_right hproduct (Nat.cast_nonneg _), kw, hkw, contains_eq_true.mp hcontains⟩

theorem not_relevance_nil (doc : KnowledgeDoc) : ¬ 0 < relevance u [] doc := fun h => by
  obtain ⟨-, kw, hkw, -⟩ := matching_of_relevance h
  cases hkw

theorem teachesBest_nil {docs : List KnowledgeDoc} (h : ∀ d ∈ docs, ¬ 0 < relevance u keywords d) :
    TeachesBest u keywords docs ([], 0) := by
  refine ⟨List.forall_mem_nil _, List.Pairwise.nil, fun _ _ => List.forall_mem_nil _,
    .inl (Nat.zero_le _), fun a ha hpos => absurd hpos (h a ha), rfl⟩

/-- The shortlist of a ranking of the documents with a score. -/
theorem teachesBest_shortlist {docs : List KnowledgeDoc} (hnodup : docs.Nodup)
    {relevant : List KnowledgeDoc}
    (h : Shortlisted docChars maxChars ((OrderBy.stable (relevanceKey u keywords)).arrange
      (docs.filter fun doc => 0 < relevance u keywords doc)) relevant) :
    TeachesBest u keywords docs (relevant, totalCost docChars relevant / 4) := by
  have hscored : ∀ d ∈ relevant, d ∈ docs ∧ 0 < relevance u keywords d := by
    intro d hd
    obtain ⟨hdocs, hpos⟩ := List.mem_filter.mp
      ((OrderBy.stable _).mem_arrange.mp (h.initial.subset hd))
    exact ⟨hdocs, of_decide_eq_true hpos⟩
  have hsorted := (OrderBy.stable (relevanceKey u keywords)).sorted
    (docs.filter fun doc => 0 < relevance u keywords doc)
  refine ⟨fun d hd => ?_, hsorted.sublist h.initial.sublist, fun a ha b hb hbefore => ?_, ?_,
    fun a ha hpos hout => ?_, rfl⟩
  · obtain ⟨hdocs, hpos⟩ := hscored d hd
    exact ⟨hdocs, matching_of_relevance hpos⟩
  · have hpos : 0 < relevance u keywords a := by
      have hb' := (hscored b hb).2
      rcases hbefore with hless | ⟨hsame, -⟩
      · exact hb'.trans hless
      · exact hsame ▸ hb'
    refine OrderBy.mem_of_mem_initial (hnodup.filter _) h.initial
      (List.mem_filter.mpr ⟨ha, decide_eq_true hpos⟩) hb (hbefore.imp id ?_)
    rintro ⟨hsame, hpair⟩
    refine ⟨congrArg OrderDual.toDual hsame.symm, ?_⟩
    have hboth : [a, b].filter (fun doc => decide (0 < relevance u keywords doc)) = [a, b] := by
      refine List.filter_eq_self.mpr fun d hd => ?_
      rcases List.mem_pair.mp hd with rfl | rfl
      · exact decide_eq_true hpos
      · exact decide_eq_true (hscored _ hb).2
    exact hboth ▸ hpair.filter _
  · refine h.fits.elim .inl fun hshort => ?_
    rcases Nat.le_one_iff_eq_zero_or_eq_one.mp hshort with hzero | hone
    · rw [List.length_eq_zero_iff.mp hzero]
      exact .inl (Nat.zero_le _)
    · exact .inr hone
  · have hranked : a ∈ (OrderBy.stable (relevanceKey u keywords)).arrange
        (docs.filter fun doc => 0 < relevance u keywords doc) :=
      (OrderBy.stable _).mem_arrange.mpr (List.mem_filter.mpr ⟨ha, decide_eq_true hpos⟩)
    refine ⟨h.started (List.ne_nil_of_mem hranked), ?_⟩
    obtain ⟨rest, hrest⟩ := h.initial
    have hnodup' : (relevant ++ rest).Nodup :=
      hrest ▸ ((OrderBy.stable _).perm _).nodup_iff.mpr (hnodup.filter _)
    have hlate : a ∈ rest := (List.mem_append.mp (hrest ▸ hranked)).resolve_left hout
    obtain ⟨b, rest, rfl⟩ := List.exists_cons_of_ne_nil (List.ne_nil_of_mem hlate)
    have hb : b ∈ relevant ++ b :: rest := List.mem_append_right _ List.mem_cons_self
    refine ⟨b, ?_, fun hmem => ?_, ?_, h.full b ⟨rest, ?_⟩⟩
    · exact List.mem_of_mem_filter ((OrderBy.stable _).mem_arrange.mp (hrest ▸ hb))
    · exact List.disjoint_of_nodup_append hnodup' hmem List.mem_cons_self
    · rw [← hrest] at hsorted
      rcases List.mem_cons.mp hlate with rfl | hlate
      · exact le_rfl
      · exact (List.pairwise_cons.mp (List.pairwise_append.mp hsorted).2.1).1 a hlate
    · rw [List.append_assoc, List.singleton_append, hrest]

end Best

end OsModa.Teachd
