import Lectern.Proofs.Inline.Links
import Lectern.Proofs.Source.Steps

/-!
# Labels of links

A link without a label of its own shows its address: without `mailto:`, if the address starts with
it, or else without all that stands up to the first `://`. Only where this is a scheme, the label
is the address without a leading scheme (`leadingSchemeDropped_dropScheme_iff`).
-/

namespace Lectern

open Text Source

variable {needle s front rest url : List Char}

/-! ## The first occurrence of a text -/

theorem after?_append (needle rest : List Char) : after? needle (needle ++ rest) = some rest := by
  unfold after?
  rw [isPrefixOf?_append]

theorem after?_cons_of_not_start {c : Char} (h : ¬ needle <+: c :: s) :
    after? needle (c :: s) = after? needle s := by
  rw [after?, isPrefixOf?_eq_none h]

theorem after?_eq_none (h : ¬ needle <:+: s) : after? needle s = none := by
  induction s with
  | nil =>
    unfold after?
    rw [isPrefixOf?_eq_none fun hp => h hp.isInfix]
  | cons c s ih =>
    obtain ⟨hstarts, htail⟩ := not_or.1 (mt List.infix_cons_iff.2 h)
    rw [after?_cons_of_not_start hstarts, ih htail]

/-- What is found is found at the first place where the text occurs. -/
theorem exists_first_occurrence (hne : needle ≠ []) (h : needle <:+: s) :
    ∃ front rest, s = front ++ (needle ++ rest) ∧ ¬ needle <:+: front ∧
      after? needle s = some rest := by
  have hnil : ¬ needle <:+: [] := fun h => hne (List.infix_nil.1 h)
  induction s with
  | nil => exact absurd h hnil
  | cons c s ih =>
    by_cases hstarts : needle <+: c :: s
    · obtain ⟨rest, hrest⟩ := hstarts
      exact ⟨[], rest, hrest.symm, hnil, by rw [← hrest, after?_append]⟩
    · obtain ⟨front, rest, rfl, hfront, hafter⟩ :=
        ih ((List.infix_cons_iff.1 h).resolve_left hstarts)
      refine ⟨c :: front, rest, rfl, fun hin => ?_, ?_⟩
      · rcases List.infix_cons_iff.1 hin with hp | hp
        · exact hstarts (hp.trans (List.prefix_append (c :: front) _))
        · exact hfront hp
      · rw [after?_cons_of_not_start hstarts, hafter]

/-- The separator cannot start in a text and end behind it, where another separator stands. -/
theorem after?_separator (h : ¬ "://".toList <:+: front) (rest : List Char) :
    after? "://".toList (front ++ ("://".toList ++ rest)) = some rest := by
  induction front with
  | nil => exact after?_append _ rest
  | cons c front ih =>
    obtain ⟨hstart, htail⟩ := not_or.1 (mt List.infix_cons_iff.2 h)
    have hstarts : ¬ "://".toList <+: c :: (front ++ ("://".toList ++ rest)) := by
      rcases front with _ | ⟨d, _ | ⟨e, r⟩⟩
      · simp
      · simp
      · simpa using hstart
    rw [List.cons_append, after?_cons_of_not_start hstarts, ih htail]

/-! ## Addresses as labels -/

theorem dropScheme_mailto (rest : List Char) : dropScheme ("mailto:".toList ++ rest) = rest := by
  rw [dropScheme, isPrefixOf?_append]

theorem dropScheme_of_not_mailto (h : ¬ "mailto:".toList <+: url) :
    dropScheme url = (after? "://".toList url).getD url := by
  rw [dropScheme, isPrefixOf?_eq_none h]

/-- Whatever stands in front of the first separator is dropped with it. -/
theorem dropScheme_separator (hmail : ¬ "mailto:".toList <+: front ++ ("://".toList ++ rest))
    (hfront : ¬ "://".toList <:+: front) :
    dropScheme (front ++ ("://".toList ++ rest)) = rest := by
  rw [dropScheme_of_not_mailto hmail, after?_separator hfront]
  rfl

theorem dropScheme_eq_self (hmail : ¬ "mailto:".toList <+: url) (h : ¬ "://".toList <:+: url) :
    dropScheme url = url := by
  rw [dropScheme_of_not_mailto hmail, after?_eq_none h]
  rfl

/-- A scheme: a letter, and behind it letters, digits, pluses, minuses and dots. -/
def IsScheme (s : List Char) : Prop :=
  ∃ c r, s = c :: r ∧ c.isAlpha = true ∧ ∀ d ∈ r, d.isAlphanum = true ∨ d ∈ ['+', '-', '.']

/-- A label is the address without `mailto:` or a scheme at its start, and the address itself where
there is neither. -/
inductive LeadingSchemeDropped (url : List Char) : List Char → Prop
  | mail {rest : List Char} (h : url = "mailto:".toList ++ rest) : LeadingSchemeDropped url rest
  | scheme {s rest : List Char} (hs : IsScheme s) (h : url = s ++ ("://".toList ++ rest)) :
      LeadingSchemeDropped url rest
  | none (hmail : ¬ "mailto:".toList <+: url)
      (hscheme : ∀ s rest, IsScheme s → url ≠ s ++ ("://".toList ++ rest)) :
      LeadingSchemeDropped url url

/-- The label of an address is the address without a leading scheme if and only if nothing but a
scheme stands in front of the first separator. -/
theorem leadingSchemeDropped_dropScheme_iff :
    LeadingSchemeDropped url (dropScheme url) ↔
      "mailto:".toList <+: url ∨
        ∀ front rest, url = front ++ ("://".toList ++ rest) → ¬ "://".toList <:+: front →
          IsScheme front := by
  by_cases hmail : "mailto:".toList <+: url
  · obtain ⟨rest, rfl⟩ := hmail
    rw [dropScheme_mailto]
    exact iff_of_true (.mail rfl) (Or.inl (List.prefix_append ..))
  rw [or_iff_right hmail]
  constructor
  · rintro hlabel front rest rfl hfront
    rw [dropScheme_separator hmail hfront] at hlabel
    generalize hwhole : front ++ ("://".toList ++ rest) = whole at hlabel hmail
    cases hlabel with
    | mail h => exact absurd ⟨_, h.symm⟩ hmail
    | scheme hs h =>
      rw [← hwhole] at h
      obtain rfl := List.append_cancel_right h
      exact hs
    | none =>
      have hlength := congrArg List.length hwhole
      simp only [List.length_append] at hlength
      exact absurd hlength (by simp; omega)
  · intro hscheme
    by_cases hsep : "://".toList <:+: url
    · obtain ⟨front, rest, rfl, hfront, -⟩ := exists_first_occurrence (by decide) hsep
      rw [dropScheme_separator hmail hfront]
      exact .scheme (hscheme front rest rfl hfront) rfl
    · rw [dropScheme_eq_self hmail hsep]
      refine .none hmail fun s rest _ h => hsep ?_
      exact ⟨s, rest, by rw [h, List.append_assoc]⟩

/-! ## Link commands -/

theorem fields_blank_append (hblank : isBlankLine s = true) (rest : List Char) :
    fields (s ++ rest) = fields rest := by
  induction s with
  | nil => rfl
  | cons c s ih =>
    rw [isBlankLine_cons, Bool.and_eq_true] at hblank
    rw [List.cons_append, fields_cons_of_isBlank hblank.1, ih hblank.2]

/-- A word in front of a blank, or at the end, is a field. -/
theorem fields_word_append {word : List Char} (hword : IsWord word)
    (hrest : rest.head?.all isBlank = true) : fields (word ++ rest) = word :: fields rest := by
  obtain ⟨hne, hchars⟩ := hword
  induction word with
  | nil => exact absurd rfl hne
  | cons c word ih =>
    obtain ⟨hc, hword⟩ := List.forall_mem_cons.1 hchars
    cases word with
    | nil =>
      rw [List.singleton_append, fields, hc, if_neg Bool.false_ne_true, if_pos hrest]
    | cons d word =>
      have hd : isBlank d = false := hword d (List.mem_cons_self ..)
      have ih := ih (List.cons_ne_nil d word) hword
      rw [List.cons_append, fields, hc, if_neg Bool.false_ne_true, ih, List.cons_append,
        List.head?_cons, Option.all_some, hd, if_neg Bool.false_ne_true]

theorem head?_all_isBlank (hblank : isBlankLine s = true) : s.head?.all isBlank = true := by
  cases s with
  | nil => rfl
  | cons c s => exact (Bool.and_eq_true _ _ ▸ hblank).1

theorem nextField_word_append {word : List Char} (hword : IsWord word)
    (hrest : rest.head?.all isBlank = true) : nextField (word ++ rest) = (word, rest) := by
  obtain ⟨c, w, rfl⟩ := List.exists_cons_of_ne_nil hword.1
  have hstart : trimStart (c :: w ++ rest) = c :: w ++ rest :=
    List.dropWhile_cons_of_neg (by simp [hword.2 c (List.mem_cons_self ..)])
  have hchars : ∀ d ∈ c :: w, (!isBlank d) = true := fun d hd => by rw [hword.2 d hd]; rfl
  have hstop : ∀ d ∈ rest.head?, (!isBlank d) = false := by
    rintro d hd
    rw [Option.mem_def.1 hd, Option.all_some] at hrest
    rw [hrest]
    rfl
  obtain ⟨htake, hdrop⟩ := span_append hchars hstop
  rw [nextField, hstart, List.span_eq_takeWhile_dropWhile, htake, hdrop]

/-- A link command with nothing but an address. -/
theorem readCommand_link (files : Files) (base : Path) {gap tail : List Char} (hurl : IsWord url)
    (hne : gap ≠ []) (hgap : isBlankLine gap = true) (htail : isBlankLine tail = true) :
    readCommand files base (".link".toList ++ (gap ++ (url ++ tail))) =
      .ok (.elem (.link (String.ofList url) (String.ofList (dropScheme url)))) := by
  have hcommand : IsWord ".link".toList := by simp [IsWord, isBlank]
  obtain ⟨b, g, rfl⟩ := List.exists_cons_of_ne_nil hne
  have hhead : (b :: g ++ (url ++ tail)).head?.all isBlank = true :=
    head?_all_isBlank (s := b :: g) hgap
  have hfield : nextField (".link".toList ++ (b :: g ++ (url ++ tail))) =
      (".link".toList, b :: g ++ (url ++ tail)) := nextField_word_append hcommand hhead
  have hnone : fields tail = [] := by
    have := fields_blank_append htail []
    rwa [List.append_nil] at this
  have hfields : fields (".link".toList ++ (b :: g ++ (url ++ tail))) = [".link".toList, url] := by
    rw [fields_word_append hcommand hhead, fields_blank_append hgap,
      fields_word_append hurl (head?_all_isBlank htail), hnone]
  unfold readCommand
  rw [hfield, hfields]
  rfl

/-! ## The labels that are stored and shown -/

/-- A link with nothing but an address, in a command or in a text, has a label made of the address,
and it is this one: the address behind `mailto:`, or else behind the first separator, or else the
whole address. So it is the address without a leading scheme if and only if nothing but a scheme
stands in front of the first separator. -/
theorem link_labels (files : Files) (base : Path) (hurl : IsWord url) :
    (∀ gap tail, gap ≠ [] → isBlankLine gap = true → isBlankLine tail = true →
      readCommand files base (".link".toList ++ (gap ++ (url ++ tail))) =
        .ok (.elem (.link (String.ofList url) (String.ofList (dropScheme url))))) ∧
    (']' ∉ url →
      style ("[[" ++ String.ofList url ++ "]]") = anchorText url (escape (dropScheme url))) ∧
    (∀ rest, url = "mailto:".toList ++ rest → dropScheme url = rest) ∧
    (¬ "mailto:".toList <+: url →
      (∀ front rest, url = front ++ ("://".toList ++ rest) → ¬ "://".toList <:+: front →
        dropScheme url = rest) ∧
      (¬ "://".toList <:+: url → dropScheme url = url)) ∧
    (LeadingSchemeDropped url (dropScheme url) ↔
      "mailto:".toList <+: url ∨
        ∀ front rest, url = front ++ ("://".toList ++ rest) → ¬ "://".toList <:+: front →
          IsScheme front) := by
  refine ⟨fun gap tail hne hgap htail => readCommand_link files base hurl hne hgap htail,
    fun hbracket => ?_, ?_, fun hmail => ⟨?_, dropScheme_eq_self hmail⟩,
    leadingSchemeDropped_dropScheme_iff⟩
  · have hlink : IsLink (String.ofList url).toList none := by
      rw [String.toList_ofList]
      exact ⟨hurl.1, fun c hc => ⟨fun h => hbracket (h ▸ hc), hurl.2 c hc⟩, nofun, nofun⟩
    have htext : ("[[" ++ String.ofList url ++ "]]").toList =
        linkText (String.ofList url).toList none := by simp [linkText]
    have hstyle := style_append_linkText (a := "") (b := "") hlink (by decide) (by decide) htext
    rw [labelSpans, List.flatMap_singleton, Span.html, String.toList_ofList] at hstyle
    have hempty : style "" = "" := by decide +kernel
    rwa [hempty, String.empty_append, String.empty_append, String.append_empty,
      String.append_empty] at hstyle
  · rintro rest rfl
    exact dropScheme_mailto rest
  · rintro front rest rfl hfront
    exact dropScheme_separator hmail hfront

/-- An address with a scheme at its start and another separator behind it. -/
theorem link_labels_scheme :
    readCommand (fun _ => .error .notFound) (.ofString "talks")
        ".link  https://go.dev/?from=http://x ".toList =
      .ok (.elem (.link "https://go.dev/?from=http://x" "go.dev/?from=http://x")) ∧
    style "[[https://go.dev/?from=http://x]]" =
      "<a href=\"https://go.dev/?from=http://x\" target=\"_blank\">go.dev/?from=http://x</a>" ∧
    LeadingSchemeDropped "https://go.dev/?from=http://x".toList
      "go.dev/?from=http://x".toList := by
  have hurl : IsWord "https://go.dev/?from=http://x".toList := by simp [IsWord, isBlank]
  obtain ⟨hcommand, hstyle, -, hother, hiff⟩ :=
    link_labels (fun _ => .error .notFound) (.ofString "talks") hurl
  have hmail : ¬ "mailto:".toList <+: "https://go.dev/?from=http://x".toList := by decide +kernel
  have hlabel : dropScheme "https://go.dev/?from=http://x".toList =
      "go.dev/?from=http://x".toList := (hother hmail).1 "https".toList _ rfl (by decide +kernel)
  rw [hlabel] at hcommand hstyle hiff
  refine ⟨hcommand [' ', ' '] [' '] (by decide) rfl rfl, ?_, hiff.2 (Or.inr ?_)⟩
  · exact (hstyle (by decide +kernel)).trans (by decide +kernel)
  · intro front rest h hfront
    have hrest : "go.dev/?from=http://x".toList = rest :=
      hlabel.symm.trans ((hother hmail).1 front rest h hfront)
    have hwhole : "https".toList ++ ("://".toList ++ rest) = front ++ ("://".toList ++ rest) := by
      rw [← h, ← hrest]
      rfl
    rw [← List.append_cancel_right hwhole]
    have hletters : "ttps".toList.all Char.isAlphanum = true := by decide +kernel
    exact ⟨'h', "ttps".toList, rfl, rfl, fun d hd => Or.inl (List.all_eq_true.1 hletters d hd)⟩

/-- An address with a separator but no scheme: the label ought to be the address, and is cut. -/
theorem link_label_cut :
    readCommand (fun _ => .error .notFound) (.ofString "talks")
        ".link /go?to=https://go.dev/doc".toList =
      .ok (.elem (.link "/go?to=https://go.dev/doc" "go.dev/doc")) ∧
    style "[[/go?to=https://go.dev/doc]]" =
      "<a href=\"/go?to=https://go.dev/doc\" target=\"_blank\">go.dev/doc</a>" ∧
    LeadingSchemeDropped "/go?to=https://go.dev/doc".toList "/go?to=https://go.dev/doc".toList ∧
    ¬ LeadingSchemeDropped "/go?to=https://go.dev/doc".toList "go.dev/doc".toList := by
  have hmail : ¬ "mailto:".toList <+: "/go?to=https://go.dev/doc".toList := by decide +kernel
  have hscheme : ∀ s rest, IsScheme s →
      "/go?to=https://go.dev/doc".toList ≠ s ++ ("://".toList ++ rest) := by
    rintro _ rest ⟨c, r, rfl, hc, -⟩ h
    obtain rfl : '/' = c := (List.cons.inj h).1
    exact absurd hc (by decide)
  have hcut : ¬ LeadingSchemeDropped "/go?to=https://go.dev/doc".toList "go.dev/doc".toList := by
    generalize hlabel : "go.dev/doc".toList = label
    rintro (h | ⟨hs, h⟩ | -)
    · exact hmail ⟨_, h.symm⟩
    · exact hscheme _ _ hs h
    · exact absurd hlabel (by decide +kernel)
  exact ⟨by cbv, by decide +kernel, .none hmail hscheme, hcut⟩

end Lectern
