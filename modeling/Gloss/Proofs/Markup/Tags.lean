import Gloss.Proofs.Markup.Slices

/-! Every tag that is written is read back. The stripper takes each opening tag for one tag of its
own length and finds the class it was written with, and it scans a rendered match into the tags of
the rendering with the pieces of the literal and of the prose between them. -/
namespace Gloss.Markup
open Text Piece Vocabulary

section Reading

/-- An opening tag that the stripper takes for one tag with this first class, wherever it stands. -/
structure ReadAs (tag name : Text) : Prop where
  opens (rest : Text) : beginsOpenSpan (tag ++ rest) = true
  notCloses (rest : Text) : beginsCloseSpan (tag ++ rest) = false
  length (rest : Text) :
    (tagLength? (tag ++ rest)).map (Option.map Subtype.val) = .ok (some (byteLength tag))
  firstClass : classSlice? tag = .ok (some name)
  piece : ∃ inner, tag = (Piece.openTag inner).text ∧ firstClass? inner = some name ∧
    ∀ before rest, scan (before ++ tag ++ rest) = scan before ++ .openTag inner :: scan rest

variable {name behind : Text}

theorem readAs_classTag (h : IsClassName name)
    (htag : IsTag (classTag name behind) (.openTag (classTag name behind))) :
    ReadAs ('<' :: classTag name behind ++ ['>']) name := by
  have hclass := firstClass?_classTag h behind
  have hjoin (rest : Text) : '<' :: classTag name behind ++ ['>'] ++ rest =
      '<' :: (classTag name behind ++ '>' :: rest) := by simp
  refine ⟨fun rest => ?_, fun rest => ?_, fun rest => ?_, ?_, _, rfl, hclass, fun before rest => ?_⟩
  · rw [hjoin, beginsOpenSpan_tag htag.1.2]
    rfl
  · rw [hjoin, beginsCloseSpan_tag htag.1.2]
    rfl
  · rw [hjoin, tagLength?_tag htag.1, byteLength_tag]
    rfl
  · rw [classSlice?_eq, firstClass?_brackets, hclass]
  · rw [List.append_assoc, hjoin, scan_append_bracket, ← List.cons_append, scan_tag htag]

theorem readAs_openSpan (h : IsClassName name) : ReadAs (openSpan name) name := by
  rw [openSpan_eq]
  exact readAs_classTag h (isTag_openSpan h)

theorem readAs_openReference {vocabulary : Vocabulary} (h : vocabulary.Sound) (term : Term) :
    ReadAs (openReference vocabulary term) vocabulary.referenceClass := by
  rw [openReference_eq]
  exact readAs_classTag (h.isClassName (by simp [classes])) (isTag_reference h term)

end Reading

/-- Markup that begins with a tag is read alike wherever it stands. -/
theorem Reads.scan_between {t : Text} {l : List Piece} (h : Reads ('<' :: t) l)
    (before behind : Text) :
    scan (before ++ '<' :: t ++ behind) = scan before ++ l ++ scan behind := by
  rw [List.append_assoc, List.cons_append, scan_append_bracket, ← List.cons_append, h,
    List.append_assoc]

/-- Every tag that is written is read back, with any vocabulary without faults. The opening tag of
each class, and that of a cross-reference to any term, is one tag with that class; labels, notes
and names hold no bracket once they are escaped; and a rendered match is scanned into the tags of
the rendering around the pieces of its literal and its prose, in any surroundings. -/
theorem rendered_tags_read_back {vocabulary : Vocabulary} (h : vocabulary.fault? = none)
    (term : Term) (variant : Option VariantKind) (literal before behind : Text) :
    (∀ name ∈ vocabulary.classes.map Prod.snd, ReadAs (openSpan name) name) ∧
    ReadAs (openReference vocabulary term) vocabulary.referenceClass ∧
    (∀ t, '<' ∉ escape t ∧ '>' ∉ escape t) ∧
    scan (before ++ renderDefinition vocabulary literal term variant ++ behind) =
      scan before ++ definitionPieces vocabulary literal term variant ++ scan behind ∧
    scan (before ++ renderReference vocabulary literal term ++ behind) =
      scan before ++ referencePieces vocabulary literal term ++ scan behind := by
  have hv := sound_of_fault? h
  refine ⟨fun name hname => readAs_openSpan (hv.isClassName hname), readAs_openReference hv term,
    fun t => ⟨not_mem_escape (by decide), not_mem_escape (by decide)⟩, ?_, ?_⟩
  · exact (reads_renderDefinition hv literal term variant).scan_between before behind
  · exact (reads_renderReference hv literal term).scan_between before behind

/-- Class names that look like parts of a tag, and labels that hold tags. -/
def tagLikeVocabulary : Vocabulary where
  containerClass := "class=".toList
  textClass := "/span".toList
  referenceClass := "title=".toList
  explanationLabel := "</span>".toList
  alternativeTermNote := "<span class=\"".toList
  referenceTooltip := "\" class=\"class=\"><span\n".toList

def tagLikeTerm : Term where
  id := "x".toList
  name := "a\"><span class=\"x\">".toList
  definition := "</span> < b".toList
  explanation := some "<span <span>".toList
  key := "x".toList

theorem rendered_tags_read_back_tagLike :
    tagLikeVocabulary.fault? = none ∧
    ReadAs (openSpan "class=".toList) "class=".toList ∧
    ReadAs (openReference tagLikeVocabulary tagLikeTerm) "title=".toList ∧
    scan ("<span".toList ++ renderDefinition tagLikeVocabulary "a <".toList tagLikeTerm
        (some .alternativeTerm) ++ ">".toList) =
      scan "<span".toList ++ definitionPieces tagLikeVocabulary "a <".toList tagLikeTerm
        (some .alternativeTerm) ++ scan ">".toList := by
  have hfault : tagLikeVocabulary.fault? = none := rfl
  obtain ⟨hspan, hreference, -, hdefinition, -⟩ := rendered_tags_read_back hfault tagLikeTerm
    (some .alternativeTerm) "a <".toList "<span".toList ">".toList
  exact ⟨hfault, hspan _ (by decide), hreference, hdefinition⟩

end Gloss.Markup
