import MessageMarkup.Format
import MessageMarkup.Proofs.Entity.Shorten
import MessageMarkup.Proofs.Entity.Trim
import MessageMarkup.Proofs.Format.Shape
import MessageMarkup.Proofs.Format.Step
import MessageMarkup.Proofs.Span

/-!
# What can be found in markup

Whatever the markup, the entities that are found in it have some order (`Found`): they start where
they were found, one after the other, and what was left unread has been passed when the next one is
found. Each thing that the reader does keeps that, and so does trimming, which also leaves nothing
empty and nothing out of range (`Format.parse_found`).

Nothing is said of where an entity stops whose text was read again. If marks in it are closed
outside, it does not shrink by what it loses, and may stop anywhere.
-/

namespace MessageMarkup

open Utf16 (encode length IsCut)
open LinkPattern (written)

/-! ## Entities in a text -/

/-- The kinds that can be found with a table: those of its styles, and links that a url can be read
of. -/
def Delimiters.CanFind (table : Delimiters) (kind : Kind) : Prop :=
  (∃ d ∈ table.entries, kind = d.style.kind) ∨ ∃ url, kind = .textUrl url ∧ ')' ∉ url.toList

/-- A character does not start in an entity. -/
def Entity.Lacks (e : Entity) (x : Char) (text : List Char) : Prop :=
  ∀ as c bs, text = as ++ c :: bs → e.offset ≤ Utf16.length as → Utf16.length as < e.stop → c ≠ x

/-- How entities that have been found lie in a text. -/
structure Found (table : Delimiters) (text : List Char) (es : List Entity) : Prop where
  /-- An entity starts between characters. -/
  starts : ∀ e ∈ es, IsCut text e.offset
  /-- A later entity does not start before an earlier one. -/
  sorted : es.Pairwise fun e e' => e.offset ≤ e'.offset
  /-- The kinds are those that can be found. -/
  kinds : ∀ e ∈ es, table.CanFind e.kind
  /-- An entity that is left unread stops between characters. -/
  stops : ∀ e ∈ es, e.kind.isVerbatim = true → IsCut text e.stop
  /-- No later entity starts in it. -/
  verbatim : es.Pairwise fun e e' => e.kind.isVerbatim = true → e.stop ≤ e'.offset
  /-- There is no closing bracket in the label of a link. -/
  labels : ∀ e ∈ es, ∀ url, e.kind = .textUrl url → e.Lacks ']' text

namespace Found

variable {table : Delimiters} {text : List Char} {es : List Entity}

/-- Before the text nothing has been found. -/
theorem nil (table : Delimiters) (text : List Char) : Found table text [] :=
  ⟨fun _ he => absurd he List.not_mem_nil, List.Pairwise.nil,
    fun _ he => absurd he List.not_mem_nil, fun _ he => absurd he List.not_mem_nil,
    List.Pairwise.nil, fun _ he => absurd he List.not_mem_nil⟩

/-- A link is left unread. -/
theorem stop_le_of_textUrl (h : Found table text es) {e : Entity} (he : e ∈ es) {url : String}
    (hkind : e.kind = .textUrl url) : e.stop ≤ length text :=
  (h.stops e he (by rw [hkind]; rfl)).le

/-- The reader passes more of the text. -/
theorem append (h : Found table text es) (more : List Char) : Found table (text ++ more) es := by
  refine ⟨fun e he => (h.starts e he).append more, h.sorted, h.kinds,
    fun e he hv => (h.stops e he hv).append more, h.verbatim, ?_⟩
  intro e he url hkind as c bs htext hstart hstop
  have hle := h.stop_le_of_textUrl he hkind
  obtain ⟨mid, htext', hmid⟩ := Utf16.exists_append_of_length_le htext.symm (by omega)
  cases mid with
  | nil =>
    rw [htext', List.append_nil] at hle
    omega
  | cons d mid =>
    -- The label ends before what is new.
    obtain ⟨rfl, -⟩ := List.cons.inj hmid
    exact h.labels e he url hkind as c mid htext' hstart hstop

/-- The entities lose something, except those behind the reader. -/
theorem map (h : Found table text es) {f : Entity → Entity}
    (hoffset : ∀ e, (f e).offset = e.offset) (hkind : ∀ e, (f e).kind = e.kind)
    (hbehind : ∀ e, e.stop ≤ length text → f e = e) : Found table text (es.map f) := by
  -- What is left unread is behind the reader.
  have hverbatim {e : Entity} (he : e ∈ es) (hv : e.kind.isVerbatim = true) : f e = e :=
    hbehind e (h.stops e he hv).le
  refine ⟨?_, ?_, ?_, ?_, ?_, ?_⟩
  · intro e' he'
    obtain ⟨e, he, rfl⟩ := List.mem_map.mp he'
    rw [hoffset]
    exact h.starts e he
  · rw [List.pairwise_map]
    simp only [hoffset]
    exact h.sorted
  · intro e' he'
    obtain ⟨e, he, rfl⟩ := List.mem_map.mp he'
    rw [hkind]
    exact h.kinds e he
  · intro e' he' hv
    obtain ⟨e, he, rfl⟩ := List.mem_map.mp he'
    rw [hkind] at hv
    rw [hverbatim he hv]
    exact h.stops e he hv
  · rw [List.pairwise_map]
    refine h.verbatim.imp_of_mem fun {e e'} he _ hle hv => ?_
    rw [hkind] at hv
    rw [hverbatim he hv, hoffset]
    exact hle hv
  · intro e' he' url hurl
    obtain ⟨e, he, rfl⟩ := List.mem_map.mp he'
    rw [hkind] at hurl
    rw [hverbatim he (by rw [hurl]; rfl)]
    exact h.labels e he url hurl

/-- An entity is found at the reader, which passes its text if that is left unread. -/
theorem concat (h : Found table text es) (xs : List Char) {e : Entity}
    (hoffset : e.offset = length text) (hkind : table.CanFind e.kind)
    (hlen : e.kind.isVerbatim = true → e.length = length xs)
    (hlabel : ∀ url, e.kind = .textUrl url → ']' ∉ xs) :
    Found table (text ++ xs) (es ++ [e]) := by
  have hmore := h.append xs
  have hcases {P : Entity → Prop} (hold : ∀ e' ∈ es, P e') (hnew : P e) :
      ∀ e' ∈ es ++ [e], P e' := by
    intro e' he'
    rcases List.mem_append.mp he' with he' | he'
    · exact hold e' he'
    · rw [List.mem_singleton.mp he']
      exact hnew
  have hstop (hv : e.kind.isVerbatim = true) : e.stop = length (text ++ xs) := by
    unfold Entity.stop
    rw [hoffset, hlen hv, Utf16.length_append]
  refine ⟨?_, ?_, ?_, ?_, ?_, ?_⟩
  · exact hcases hmore.starts ⟨text, xs, rfl, hoffset.symm⟩
  · rw [List.pairwise_append]
    refine ⟨h.sorted, List.pairwise_singleton _ _, fun e' he' e'' he'' => ?_⟩
    rw [List.mem_singleton.mp he'', hoffset]
    exact (h.starts e' he').le
  · exact hcases h.kinds hkind
  · refine hcases hmore.stops fun hv => ?_
    exact ⟨text ++ xs, [], (List.append_nil _).symm, (hstop hv).symm⟩
  · rw [List.pairwise_append]
    refine ⟨h.verbatim, List.pairwise_singleton _ _, fun e' he' e'' he'' hv => ?_⟩
    rw [List.mem_singleton.mp he'', hoffset]
    exact (h.stops e' he' hv).le
  · -- A character in the new entity is one of its label.
    refine hcases hmore.labels fun url hurl as c bs htext hstart hlt heq => ?_
    rw [hstop (by rw [hurl]; rfl), Utf16.length_append] at hlt
    rw [hoffset] at hstart
    have htext' : text ++ (xs ++ []) = as ++ c :: bs := by rw [List.append_nil, htext]
    exact hlabel url hurl (heq ▸ Utf16.mem_of_inside htext' hstart hlt)

/-- What is left of the entities when a text is trimmed. -/
theorem trim (h : Found table text es) :
    Found table (trimChars text)
      (es.filterMap (Entity.clip? (leadingBlanks text) (length (trimChars text)))) := by
  obtain ⟨before, after, htext, hbefore⟩ := exists_trimChars text
  -- A cut of the text becomes one of what is left of it, because trimming leaves a piece.
  have hcut {p : Nat} (hp : IsCut text p) :
      IsCut (trimChars text) (min (p - leadingBlanks text) (length (trimChars text))) := by
    rw [htext] at hp
    rw [← hbefore]
    exact hp.inside
  refine ⟨?_, ?_, ?_, ?_, ?_, ?_⟩
  · intro e' he'
    obtain ⟨e, he, hclip⟩ := List.mem_filterMap.mp he'
    obtain ⟨-, -, hoffset, -⟩ := Entity.of_clip?_eq_some hclip
    rw [hoffset]
    exact hcut (h.starts e he)
  · exact Entity.pairwise_clip? h.sorted
  · intro e' he'
    obtain ⟨e, he, hclip⟩ := List.mem_filterMap.mp he'
    rw [(Entity.of_clip?_eq_some hclip).1]
    exact h.kinds e he
  · intro e' he' hv
    obtain ⟨e, he, hclip⟩ := List.mem_filterMap.mp he'
    obtain ⟨hkind, -, -, hstop⟩ := Entity.of_clip?_eq_some hclip
    rw [hkind] at hv
    rw [hstop]
    exact hcut (h.stops e he hv)
  · rw [List.pairwise_filterMap]
    refine h.verbatim.imp fun hle e₁ h₁ e₂ h₂ hv => ?_
    obtain ⟨hkind, -, -, hstop⟩ := Entity.of_clip?_eq_some h₁
    obtain ⟨-, -, hoffset, -⟩ := Entity.of_clip?_eq_some h₂
    rw [hkind] at hv
    have := hle hv
    omega
  · intro e' he' url hurl as c bs has hstart hlt
    obtain ⟨e, he, hclip⟩ := List.mem_filterMap.mp he'
    obtain ⟨hkind, -, hoffset, hstop⟩ := Entity.of_clip?_eq_some hclip
    rw [hkind] at hurl
    -- The character is one of the whole text, behind the blanks.
    have hwhole : text = (before ++ as) ++ c :: (bs ++ after) := by
      rw [htext, has]
      simp only [List.append_assoc, List.cons_append]
    have hlen := congrArg length has
    rw [Utf16.length_append, Utf16.length_cons] at hlen
    have hpos := Utf16.width_pos c
    apply h.labels e he url hurl (before ++ as) c (bs ++ after) hwhole
    · rw [Utf16.length_append]
      omega
    · rw [Utf16.length_append]
      omega

end Found

/-! ## Reading -/

/-- After a run the entities are in the text. -/
theorem Scan.run_found {table : Delimiters} (hm : ∀ d ∈ table.entries, d.marker ≠ "")
    (markup : String) :
    ∃ text es, Found table text es ∧
      (Scan.run table .standard { rest := Utf16.ofText markup }).units = encode text ∧
      (Scan.run table .standard { rest := Utf16.ofText markup }).entities = es := by
  refine At.run_induction (fun passed _ es => Found table passed es) hm ?_ ?_ ?_
    (at_start markup.toList) (Found.nil table [])
  · intro passed c _ es _ h
    exact h.append [c]
  · intro passed d content _ es hd _ _ h
    have hless := h.map (f := Entity.withoutPair (length passed)
      (length passed + d.width + length content) d.width) (fun _ => Entity.offset_withoutPair)
      (fun _ => Entity.kind_withoutPair) (fun _ => Entity.withoutPair_of_le)
    have hkind : table.CanFind d.style.kind := Or.inl ⟨d, hd, rfl⟩
    have hnolink (url : String) : d.style.kind ≠ .textUrl url := by
      cases d.style <;> exact Kind.noConfusion
    cases hv : d.style.isVerbatim with
    | true =>
      -- The text between the markers is passed with them.
      exact hless.concat content rfl hkind (fun _ => rfl) fun url hurl => absurd hurl (hnolink url)
    | false =>
      -- The text between the markers is still to be read, and nothing is said of it.
      have hread : d.style.kind.isVerbatim ≠ true := by
        rw [Style.isVerbatim_kind, hv]
        exact Bool.false_ne_true
      have hnew := hless.concat [] (e := ⟨length passed, length content, d.style.kind⟩) rfl hkind
        (fun h => absurd h hread) fun url hurl => absurd hurl (hnolink url)
      rw [List.append_nil] at hnew
      exact hnew
  · intro passed label url _ es _ hlabel hurl h
    have hless := h.map (f := Entity.withoutLink (length passed)
      (length (written label url) - length label)) (fun _ => Entity.offset_withoutLink)
      (fun _ => Entity.kind_withoutLink) (fun _ => Entity.withoutLink_of_le)
    refine hless.concat label rfl (Or.inr ⟨_, rfl, ?_⟩) (fun _ => rfl) fun _ _ => hlabel
    rw [String.toList_ofList]
    exact hurl

/-- What is read from markup: the text has no blanks around it, and the entities are not empty, in
range, and lie as those that can be found. -/
theorem Format.parse_found {f : Format} (hlinks : f.links = .standard)
    (hm : ∀ d ∈ f.table.entries, d.marker ≠ "") (hne : f.table.entries ≠ []) (markup : String) :
    ∃ text : List Char, (f.parse markup).text = String.ofList text ∧
      (∀ c ∈ text.head?, isBlank c = false) ∧ (∀ c ∈ text.getLast?, isBlank c = false) ∧
      (∀ e ∈ (f.parse markup).entities, 0 < e.length ∧ e.stop ≤ length text) ∧
      Found f.table text (f.parse markup).entities := by
  -- The run ends with entities in its text, which is trimmed, and they with it.
  obtain ⟨text, es, hfound, hunits, hentities⟩ := Scan.run_found hm markup
  have hparse : f.parse markup = Message.trim { text := String.ofList text, entities := es } := by
    rw [← hlinks] at hunits hentities
    rw [Format.parse_eq_of_run (Delimiters.isEmpty_eq_false hne) hunits, hentities]
  rw [hparse, Message.trim_ofList]
  refine ⟨trimChars text, rfl, fun c hc => isBlank_head_trimChars hc,
    fun c hc => isBlank_last_trimChars hc, fun e' he' => ?_, hfound.trim⟩
  obtain ⟨e, he, hclip⟩ := List.mem_filterMap.mp he'
  obtain ⟨-, hpos, -, hstop⟩ := Entity.of_clip?_eq_some hclip
  exact ⟨hpos, by omega⟩

end MessageMarkup
