import Mathlib.Data.List.Find
import MessageMarkup.Proofs.Format.Legible
import MessageMarkup.Proofs.Format.Shape

/-!
# Blanks around markup

Blanks around markup have no part in what it is read as. The reader takes the same things out of the
markup wherever that starts and whatever blanks follow it, because no mark ends with a blank: two
runs, one of them with blanks around the markup, go through the same texts and find the same
entities, in the second so many units later (`Scan.run_surrounded`). Trimming takes the blanks away
again, and with them what an entity may have got of them (`Message.trim_surrounded`). So the message
is the same (`Format.parse_surrounded`).
-/

namespace MessageMarkup

open Utf16 (encode length)
open LinkPattern (written)

/-! ## Marks in front of blanks -/

/-- What a text starts with is what its first part starts with, if it does not end in the second. -/
theorem prefix_of_last_not_mem {α : Type} {xs ys zs : List α} (h : xs <+: ys ++ zs)
    (hlast : ∀ x ∈ xs.getLast?, x ∉ zs) : xs <+: ys := by
  obtain ⟨ws, hws⟩ := h
  rcases List.append_eq_append_iff.mp hws with ⟨mid, rfl, -⟩ | ⟨mid, rfl, rfl⟩
  · exact List.prefix_append _ _
  · -- It ends where the first part does.
    cases mid using List.reverseRecOn with
    | nil => rw [List.append_nil]
    | append_singleton mid x =>
      have hx : x ∈ (ys ++ (mid ++ [x])).getLast? := by
        rw [← List.append_assoc, List.getLast?_concat]
        rfl
      exact absurd (by simp) (hlast x hx)

variable {table : Delimiters} {before after : List Char}

/-- The last character of a marker in front of blanks is none of them. -/
theorem Delimiters.last_not_mem (hplain : ∀ c ∈ after, table.IsPlain c) {d : Delimiter}
    (hd : d ∈ table.entries) : ∀ c ∈ d.marker.toList.getLast?, c ∉ after :=
  fun c hc hmem => (hplain c hmem).2 d hd (List.mem_of_getLast? hc)

/-- Plain characters behind a text make no marker. -/
theorem Delimiters.match?_append (hplain : ∀ c ∈ after, table.IsPlain c) (cs : List Char) :
    table.match? (encode (cs ++ after)) = table.match? (encode cs) := by
  rw [match?_encode, match?_encode]
  refine List.find?_congr fun d hd => ?_
  rw [Bool.eq_iff_iff, List.isPrefixOf_iff_prefix, List.isPrefixOf_iff_prefix]
  constructor
  · intro h
    exact prefix_of_last_not_mem h (last_not_mem hplain hd)
  · intro h
    exact h.trans (List.prefix_append cs after)

/-- What the reader passes it passes in front of plain characters that do not end a link. -/
theorem Delimiters.Passes.append (hm : ∀ d ∈ table.entries, d.marker ≠ "")
    (hplain : ∀ c ∈ after, table.IsPlain c) (hafter : ')' ∉ after) {cs : List Char}
    (h : table.Passes cs) : table.Passes (cs ++ after) := by
  obtain hpasses | ⟨d, content, rest, hahead, hmatch, hcloses⟩ |
      ⟨label, url, rest, hahead, hmatch, hlabel, hurl⟩ := Scan.cases_ahead hm (cs ++ after)
  · exact hpasses
  · -- The second marker of a pair would end in front of the plain characters.
    obtain ⟨hd, -⟩ := Delimiters.of_match?_eq_some hmatch
    have hstarts : d.marker.toList ++ content ++ d.marker.toList <+: cs ++ after := by
      rw [hahead]
      exact ⟨rest, by simp only [List.append_assoc]⟩
    obtain ⟨rest', rfl⟩ := prefix_of_last_not_mem hstarts fun c hc => by
      rw [List.getLast?_append_of_ne_nil _ (Delimiter.toList_ne_nil (hm d hd))] at hc
      exact last_not_mem hplain hd c hc
    rw [match?_append hplain] at hmatch
    simp only [List.append_assoc] at h hmatch
    exact absurd h (Scan.not_passes_pair (hm d hd) hmatch hcloses)
  · -- And so would the end of a link.
    have hstarts : written label url <+: cs ++ after := ⟨rest, hahead.symm⟩
    obtain ⟨rest', rfl⟩ := prefix_of_last_not_mem hstarts fun c hc => by
      have hlast : (written label url).getLast? = some ')' := by
        have hcut : written label url = ('[' :: label ++ ']' :: '(' :: url) ++ [')'] := by
          simp [written]
        rw [hcut, List.getLast?_concat]
      rw [hlast] at hc
      rw [← Option.some.inj hc]
      exact hafter
    rw [match?_append hplain] at hmatch
    exact absurd h (Scan.not_passes_link hmatch hlabel hurl)

/-! ## Entities further behind -/

/-- An entity of a text in front of which there are `n` more units. -/
def Entity.moved (n : Nat) (e : Entity) : Entity :=
  { e with offset := n + e.offset }

namespace Entity

variable (n : Nat) (e : Entity)

/-- It stops so many units later. -/
theorem stop_moved : (e.moved n).stop = n + e.stop :=
  Nat.add_assoc n e.offset e.length

/-- It loses the same to a pair that is further behind. -/
theorem moved_withoutPair (start stop width : Nat) :
    (e.withoutPair start stop width).moved n =
      (e.moved n).withoutPair (n + start) (n + stop) width := by
  have hlt : n + start < n + e.stop ↔ start < e.stop := by omega
  have hinside : n + e.offset ≤ n + start ∧ n + stop + width ≤ n + e.stop ↔
      e.offset ≤ start ∧ stop + width ≤ e.stop := by omega
  have hoffset : (e.moved n).offset = n + e.offset := rfl
  unfold withoutPair
  rw [stop_moved, hoffset]
  simp only [hlt, hinside]
  split
  · split <;> rfl
  · rfl

/-- It loses the same to a link that is further behind. -/
theorem moved_withoutLink (start removed : Nat) :
    (e.withoutLink start removed).moved n = (e.moved n).withoutLink (n + start) removed := by
  have hlt : n + start < n + e.stop ↔ start < e.stop := by omega
  unfold withoutLink
  rw [stop_moved]
  simp only [hlt]
  split <;> rfl

/-- Entities that lose to a pair, and the one that is found there, further behind. -/
theorem map_moved_withoutPair (es : List Entity) (start length width : Nat) (kind : Kind) :
    (es.map (withoutPair start (start + width + length) width) ++
        [(⟨start, length, kind⟩ : Entity)]).map (moved n) =
      (es.map (moved n)).map (withoutPair (n + start) (n + start + width + length) width) ++
        [⟨n + start, length, kind⟩] := by
  rw [List.map_append, List.map_map, List.map_map]
  congr 1
  refine List.map_congr_left fun e _ => ?_
  rw [Function.comp_apply, Function.comp_apply, moved_withoutPair]
  congr 1
  omega

/-- Entities that lose to a link, and the one that is found there, further behind. -/
theorem map_moved_withoutLink (es : List Entity) (start removed length : Nat) (kind : Kind) :
    (es.map (withoutLink start removed) ++ [(⟨start, length, kind⟩ : Entity)]).map (moved n) =
      (es.map (moved n)).map (withoutLink (n + start) removed) ++ [⟨n + start, length, kind⟩] := by
  rw [List.map_append, List.map_map, List.map_map]
  congr 1
  exact List.map_congr_left fun e _ => moved_withoutLink n e start removed

/-- What is left of it is the same if so many more units are trimmed in front of it. -/
theorem clip?_moved (leading kept : Nat) :
    (e.moved n).clip? (n + leading) kept = e.clip? leading kept := by
  have hcovers : (e.moved n).length = 0 ∨ (e.moved n).stop ≤ n + leading ↔
      e.length = 0 ∨ e.stop ≤ leading := by
    rw [stop_moved, Nat.add_le_add_iff_left]
    rfl
  have hstart : n + leading ≤ (e.moved n).offset ↔ leading ≤ e.offset :=
    Nat.add_le_add_iff_left
  have hoffset : (e.moved n).offset - (n + leading) = e.offset - leading :=
    Nat.add_sub_add_left n e.offset leading
  have hstop : (e.moved n).stop - (n + leading) = e.stop - leading := by
    rw [stop_moved, Nat.add_sub_add_left]
  unfold clip?
  simp only [hcovers, hstart, hoffset, hstop]
  rfl

/-- Nothing is left of it where no text is left. -/
theorem clip?_zero (leading : Nat) : e.clip? leading 0 = none := by
  rw [Option.eq_none_iff_forall_ne_some]
  intro e' hclip
  obtain ⟨-, hpos, -, hstop⟩ := of_clip?_eq_some hclip
  unfold stop at hstop
  omega

end Entity

/-! ## Two runs -/

namespace Scan

variable {s : Scan} {passed ahead : List Char} {es : List Entity}

/-- The reader passes plain characters. -/
theorem run_plain (ht : table.Apart) {xs : List Char} (hplain : ∀ c ∈ xs, table.IsPlain c)
    (h : s.At passed (xs ++ ahead) es) :
    ∃ s' : Scan, s.run table .standard = s'.run table .standard ∧
      s'.At (passed ++ xs) ahead es := by
  induction xs generalizing s passed with
  | nil => exact ⟨s, rfl, by rwa [List.append_nil]⟩
  | cons c xs ih =>
    have hpasses := ht.passes (hplain c List.mem_cons_self) (xs ++ ahead)
    obtain ⟨s', hrun, h'⟩ := run_pass ht.marker_ne h hpasses
    obtain ⟨s'', hrun', h''⟩ := ih (fun c' hc' => hplain c' (List.mem_cons_of_mem c hc')) h'
    refine ⟨s'', hrun.trans hrun', ?_⟩
    rwa [List.append_assoc, List.singleton_append] at h''

/-- A run from `start` keeps pace with one that has passed some text and has another ahead: it comes
to where it has the same ahead, in front of `after`, and has passed the same, behind `before`, with
the same entities so much further behind. -/
def KeepsPace (table : Delimiters) (start : Scan) (before after passed ahead : List Char)
    (es : List Entity) : Prop :=
  ∃ s : Scan, start.run table .standard = s.run table .standard ∧
    s.At (before ++ passed) (ahead ++ after) (es.map (Entity.moved (length before)))

namespace KeepsPace

variable {start : Scan}

/-- Both runs pass a character. -/
theorem pass (hm : ∀ d ∈ table.entries, d.marker ≠ "") (hplain : ∀ c ∈ after, table.IsPlain c)
    (hlink : ')' ∉ after) {c : Char} (h : KeepsPace table start before after passed (c :: ahead) es)
    (hpasses : table.Passes (c :: ahead)) :
    KeepsPace table start before after (passed ++ [c]) ahead es := by
  obtain ⟨s, hrun, hs⟩ := h
  obtain ⟨s', hrun', h'⟩ := run_pass hm hs (hpasses.append hm hplain hlink)
  refine ⟨s', hrun.trans hrun', ?_⟩
  rwa [← List.append_assoc]

/-- Both runs take out a pair. -/
theorem pair (hplain : ∀ c ∈ after, table.IsPlain c) {d : Delimiter} {content : List Char}
    (h : KeepsPace table start before after passed
      (d.marker.toList ++ (content ++ (d.marker.toList ++ ahead))) es)
    (hd : d.marker ≠ "")
    (hmatch : table.match?
      (encode (d.marker.toList ++ (content ++ (d.marker.toList ++ ahead)))) = some d)
    (hcloses : Closes d.marker.toList content) :
    KeepsPace table start before after (if d.style.isVerbatim then passed ++ content else passed)
      (if d.style.isVerbatim then ahead else content ++ ahead)
      (es.map (Entity.withoutPair (length passed) (length passed + d.width + length content)
        d.width) ++ [⟨length passed, length content, d.style.kind⟩]) := by
  obtain ⟨s, hrun, hs⟩ := h
  have hassoc : d.marker.toList ++ (content ++ (d.marker.toList ++ ahead)) ++ after =
      d.marker.toList ++ (content ++ (d.marker.toList ++ (ahead ++ after))) := by
    simp only [List.append_assoc]
  rw [← Delimiters.match?_append hplain, hassoc] at hmatch
  rw [hassoc] at hs
  obtain ⟨s', hrun', h'⟩ := run_pair hd hs hmatch hcloses
  refine ⟨s', hrun.trans hrun', ?_⟩
  rw [Entity.map_moved_withoutPair, ← Utf16.length_append]
  split
  · rename_i hv
    rwa [if_pos hv, if_pos hv, List.append_assoc] at h'
  · rename_i hv
    rwa [if_neg hv, if_neg hv, ← List.append_assoc] at h'

/-- Both runs replace a link. -/
theorem link (hplain : ∀ c ∈ after, table.IsPlain c) {label url : List Char}
    (h : KeepsPace table start before after passed (written label url ++ ahead) es)
    (hmatch : table.match? (encode (written label url ++ ahead)) = none) (hlabel : ']' ∉ label)
    (hurl : ')' ∉ url) :
    KeepsPace table start before after (passed ++ label) ahead
      (es.map (Entity.withoutLink (length passed) (length (written label url) - length label)) ++
        [⟨length passed, length label, .textUrl (String.ofList url)⟩]) := by
  obtain ⟨s, hrun, hs⟩ := h
  rw [← Delimiters.match?_append hplain, List.append_assoc] at hmatch
  rw [List.append_assoc] at hs
  obtain ⟨s', hrun', h'⟩ := run_link hs hmatch hlabel hurl
  refine ⟨s', hrun.trans hrun', ?_⟩
  rwa [Entity.map_moved_withoutLink, ← Utf16.length_append, ← List.append_assoc]

end KeepsPace

/-- A run with plain characters around the markup ends with them around what the run without them
ends with, and with the same entities, so much further behind. -/
theorem run_surrounded (ht : table.Apart) (hbefore : ∀ c ∈ before, table.IsPlain c)
    (hafter : ∀ c ∈ after, table.IsPlain c) (hlink : ')' ∉ after) (markup : List Char) :
    ∃ text es,
      (run table .standard { rest := encode markup }).units = encode text ∧
      (run table .standard { rest := encode markup }).entities = es ∧
      (run table .standard { rest := encode (before ++ (markup ++ after)) }).units =
        encode (before ++ (text ++ after)) ∧
      (run table .standard { rest := encode (before ++ (markup ++ after)) }).entities =
        es.map (Entity.moved (length before)) := by
  have hm := ht.marker_ne
  -- Behind the characters before the markup, the run with them is where the other one starts.
  obtain ⟨start, hstart, hat⟩ := run_plain ht hbefore (at_start (before ++ (markup ++ after)))
  have hpace : KeepsPace table start before after [] markup [] := by
    refine ⟨start, rfl, ?_⟩
    rwa [List.append_nil, ← List.nil_append before]
  obtain ⟨text, es, ⟨s, hrun, hs⟩, hunits, hentities⟩ := (at_start markup).run_induction
    (KeepsPace table start before after) hm
    (fun hpasses h => h.pass hm hafter hlink hpasses)
    (fun hd hmatch hcloses h => h.pair hafter (hm _ hd) hmatch hcloses)
    (fun hmatch hlabel hurl h => h.link hafter hmatch hlabel hurl) hpace
  -- At the end there are only the characters behind it.
  rw [List.nil_append, ← List.append_nil after] at hs
  obtain ⟨s', hrun', h'⟩ := run_plain ht hafter hs
  refine ⟨text, es, hunits, hentities, ?_⟩
  rw [hstart, hrun, hrun', ← List.append_assoc]
  exact h'.run_nil

end Scan

/-! ## Trimming -/

/-- Blanks around a text are trimmed with its own. -/
theorem trimChars_surrounded (hbefore : ∀ c ∈ before, isBlank c = true)
    (hafter : ∀ c ∈ after, isBlank c = true) (cs : List Char) :
    trimChars (before ++ (cs ++ after)) = trimChars cs := by
  have hnone : after.rdropWhile isBlank = [] := List.rdropWhile_eq_nil_iff.mpr hafter
  unfold trimChars
  rw [List.dropWhile_append_of_pos hbefore, List.dropWhile_append]
  split
  · -- The text itself is blank.
    rename_i hblank
    rw [List.isEmpty_iff] at hblank
    rw [hblank, List.dropWhile_eq_nil_iff.mpr hafter]
  · rw [rdropWhile_append, if_pos hnone]

/-- Behind blanks a text that is not blank has so many more blanks at its start. -/
theorem leadingBlanks_surrounded (hbefore : ∀ c ∈ before, isBlank c = true) {cs : List Char}
    (hne : trimChars cs ≠ []) (after : List Char) :
    leadingBlanks (before ++ (cs ++ after)) = length before + leadingBlanks cs := by
  have hdrop : cs.dropWhile isBlank ≠ [] := by
    intro hnil
    apply hne
    unfold trimChars
    rw [hnil]
    rfl
  rw [leadingBlanks_append_of_forall hbefore, leadingBlanks_append_of_ne hdrop]

/-- Trimming a message with blanks around it leaves what trimming it without them does. -/
theorem Message.trim_surrounded (hbefore : ∀ c ∈ before, isBlank c = true)
    (hafter : ∀ c ∈ after, isBlank c = true) (cs : List Char) (es : List Entity) :
    Message.trim
        { text := String.ofList (before ++ (cs ++ after))
          entities := es.map (Entity.moved (length before)) } =
      Message.trim { text := String.ofList cs, entities := es } := by
  rw [Message.trim_ofList, Message.trim_ofList, trimChars_surrounded hbefore hafter,
    List.filterMap_map]
  congr 1
  refine List.filterMap_congr fun e _ => ?_
  rw [Function.comp_apply]
  by_cases hnil : trimChars cs = []
  · -- Where all is blank no entity is left.
    rw [hnil, Utf16.length_nil, Entity.clip?_zero, Entity.clip?_zero]
  · rw [leadingBlanks_surrounded hbefore hnil, Entity.clip?_moved]

/-! ## Messages -/

/-- Markup with blanks around it is read as it is without them, with any table that has none in its
markers and takes none for a link. -/
theorem Format.parse_surrounded {f : Format} (hlinks : f.links = .standard) (ht : f.table.Apart)
    (hne : f.table.entries ≠ []) (hplain : ∀ c, isBlank c = true → f.table.IsPlain c)
    (hbefore : ∀ c ∈ before, isBlank c = true) (hafter : ∀ c ∈ after, isBlank c = true)
    (markup : List Char) :
    f.parse (String.ofList (before ++ (markup ++ after))) = f.parse (String.ofList markup) := by
  have hlink : ')' ∉ after := fun hmem => absurd (hafter ')' hmem) (by decide)
  obtain ⟨text, es, hunits, hentities, hunits', hentities'⟩ := Scan.run_surrounded ht
    (fun c hc => hplain c (hbefore c hc)) (fun c hc => hplain c (hafter c hc)) hlink markup
  have hofText (cs : List Char) : Utf16.ofText (String.ofList cs) = encode cs :=
    congrArg encode String.toList_ofList
  rw [← hlinks, ← hofText] at hunits hentities hunits' hentities'
  have hempty := Delimiters.isEmpty_eq_false hne
  rw [Format.parse_eq_of_run hempty hunits, Format.parse_eq_of_run hempty hunits', hentities,
    hentities', Message.trim_surrounded hbefore hafter]

/-- No marker of the standard table has a blank, and no link starts with one. -/
theorem Delimiters.isPlain_of_isBlank {c : Char} (h : isBlank c = true) : standard.IsPlain c := by
  have hne {x : Char} (hx : isBlank x = false) : c ≠ x := by
    rintro rfl
    rw [hx] at h
    exact absurd h Bool.false_ne_true
  refine ⟨hne (by decide), fun d hd hmem => ?_⟩
  have hmarker : ∀ x ∈ d.marker.toList, isBlank x = false := by
    rcases mem_standard hd with rfl | rfl | rfl | rfl | rfl <;> decide
  exact hne (hmarker c hmem) rfl

/-- Blanks around markup have no part in what it stands for: the text is the same, and so are the
entities, each with the same offset and length. -/
theorem Format.parse_blanks (before markup after : String)
    (hbefore : ∀ c ∈ before.toList, isBlank c = true)
    (hafter : ∀ c ∈ after.toList, isBlank c = true) :
    ({} : Format).parse (before ++ markup ++ after) = ({} : Format).parse markup := by
  have hparse := Format.parse_surrounded (f := {}) rfl Delimiters.apart_standard
    Delimiters.standard_entries_ne_nil (fun _ => Delimiters.isPlain_of_isBlank) hbefore hafter
    markup.toList
  rw [String.ofList_toList] at hparse
  rw [← hparse, String.append_assoc]
  congr 1
  rw [← String.toList_inj, String.toList_append, String.toList_append, String.toList_ofList]

/-- An entity that kept half of a marker reaches behind the text when all is read, into the blanks
there. In the end it has none of them. -/
theorem Format.parse_blanks_crossing :
    let before := " \u001c"
    let markup := "**a__b_**_"
    let after := "\u2003\n"
    (Scan.run .standard .standard { rest := Utf16.ofText (before ++ markup ++ after) }).entities =
        [⟨2, 3, .bold⟩, ⟨3, 1, .italic⟩] ∧
      ({} : Format).parse markup =
        { text := "ab", entities := [⟨0, 2, .bold⟩, ⟨1, 1, .italic⟩] } ∧
      (∀ c ∈ before.toList, isBlank c = true) ∧ (∀ c ∈ after.toList, isBlank c = true) ∧
      ({} : Format).parse (before ++ markup ++ after) = ({} : Format).parse markup := by
  refine ⟨by decide +kernel, by decide +kernel, by decide, by decide, ?_⟩
  exact Format.parse_blanks _ _ _ (by decide) (by decide)

end MessageMarkup
