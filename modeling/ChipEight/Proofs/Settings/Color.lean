import ChipEight.Proofs.Text.IntegerForm
import ChipEight.Settings.Basic
import ChipEight.Window

/-!
# Which accepted colors can be used

The settings accept a color if its six characters are one integer in base sixteen, and the window reads
them as three integers of two characters each.  An integer may have more than digits: blanks around it, a
sign, a mark of the base, and marks between the digits.  So what is one integer need not be three.

If it is, each pair has a digit in it, and what stands between the first digit and the last one of the six
cannot be a blank or a sign.  This leaves the first character and the last one (`digits_of_pairs`).  A
sign or a blank in front belongs to the whole and to the first pair alike, and does no harm unless the
number is negative (`pairsMake_iff_of_digits`).  But a blank at the end takes one place from the whole,
while the first two pairs keep theirs, so that these must be zero (`pairsMake_iff_of_blank`).
-/

namespace ChipEight

open Text Text.IntegerLiteral

/-! ### Six characters -/

section Six

variable {a b c d e f : Char} {n : Int}

theorem solid_of_pair (h : read? [a, b] = some n) : ∃ c ∈ [a, b], isBlank c = false := by
  rcases cases_of_read?_pair h with ⟨-, -, v, -, hb⟩ | ⟨v, ha, -⟩
  · exact ⟨b, by simp, hb.notBlank⟩
  · exact ⟨a, by simp, ha.notBlank⟩

/-- Three pairs of characters are bytes, and these make up a number. -/
def PairsMake (a b c d e f : Char) (n : Int) : Prop :=
  ∃ red green blue : Int,
    read? [a, b] = some red ∧ read? [c, d] = some green ∧ read? [e, f] = some blue ∧
    (0 ≤ red ∧ red ≤ 255) ∧ (0 ≤ green ∧ green ≤ 255) ∧ (0 ≤ blue ∧ blue ≤ 255) ∧
    red * 65536 + green * 256 + blue = n

/-- If six characters are an integer, and every two of them, then the second to the fifth are digits, and
the last one is a digit or a blank. -/
theorem digits_of_pairs (h : read? [a, b, c, d, e, f] = some n) (hmake : PairsMake a b c d e f n) :
    AllHexadecimal [b, c, d, e] ∧ ((∃ v, Hexadecimal f v) ∨ isBlank f = true) := by
  obtain ⟨red, green, blue, hred, hgreen, hblue, -⟩ := hmake
  obtain ⟨last, hlast, hsolid⟩ := solid_of_pair hblue
  obtain ⟨vb, hb⟩ : ∃ v, Hexadecimal b v := by
    rcases cases_of_read?_pair hred with ⟨-, -, v, -, hb⟩ | ⟨v, ha, hblank⟩
    · exact ⟨v, hb⟩
    · have hinner : Inner b :=
        inner_of_read? [a] [c, d, e, f] h ⟨a, by simp, ha.notBlank⟩
          ⟨last, List.mem_append_right [b, c, d] hlast, hsolid⟩
      exact absurd (hinner.notBlank.symm.trans hblank) Bool.false_ne_true
  have hc : Inner c :=
    inner_of_read? [a, b] [d, e, f] h ⟨b, by simp, hb.notBlank⟩
      ⟨last, List.mem_append_right [c, d] hlast, hsolid⟩
  have hd : Inner d :=
    inner_of_read? [a, b, c] [e, f] h ⟨b, by simp, hb.notBlank⟩
      ⟨last, List.mem_append_right [d] hlast, hsolid⟩
  have hcd : (∃ v, Hexadecimal c v) ∧ ∃ v, Hexadecimal d v := by
    rcases cases_of_read?_pair hgreen with ⟨sign, w, v, hlead, hdigit⟩ | ⟨v, -, hblank⟩
    · exact ⟨⟨w, (hlead.digit_of_inner hc).1⟩, v, hdigit⟩
    · exact absurd (hd.notBlank.symm.trans hblank) Bool.false_ne_true
  have hef : (∃ v, Hexadecimal e v) ∧ ((∃ v, Hexadecimal f v) ∨ isBlank f = true) := by
    rcases cases_of_read?_pair hblue with ⟨sign, w, v, hlead, hdigit⟩ | ⟨v, hdigit, hblank⟩
    · have he : Inner e :=
        inner_of_read? [a, b, c, d] [f] h ⟨b, by simp, hb.notBlank⟩ ⟨f, by simp, hdigit.notBlank⟩
      exact ⟨⟨w, (hlead.digit_of_inner he).1⟩, .inl ⟨v, hdigit⟩⟩
    · exact ⟨⟨v, hdigit⟩, .inr hblank⟩
  refine ⟨?_, hef.2⟩
  simp only [AllHexadecimal, List.forall_mem_cons]
  exact ⟨⟨vb, hb⟩, hcd.1, hcd.2, hef.1, by simp⟩

/-- A pair of digits. -/
theorem read?_digits {va vb : Nat} (ha : Hexadecimal a va) (hb : Hexadecimal b vb) :
    read? [a, b] = some ((va * 16 + vb : Nat) : Int) := by
  rw [read?_lead_digit (.digit ha) hb, Int.one_mul]

/-- Where digits follow the first character, the parts make up the whole unless it is negative. -/
theorem pairsMake_iff_of_digits (h : read? [a, b, c, d, e, f] = some n)
    (hs : AllHexadecimal [b, c, d, e, f]) : PairsMake a b c d e f n ↔ 0 ≤ n := by
  obtain ⟨⟨vb, hb⟩, ⟨vc, hc⟩, ⟨vd, hd⟩, ⟨ve, he⟩, ⟨vf, hf⟩, -⟩ := by
    simpa only [AllHexadecimal, List.forall_mem_cons] using hs
  have hm (va : Nat) : digits? 16 true va [b, c, d, e, f] =
      some (((((va * 16 + vb) * 16 + vc) * 16 + vd) * 16 + ve) * 16 + vf) := by
    simp only [digits?_hexadecimal hb, digits?_hexadecimal hc, digits?_hexadecimal hd,
      digits?_hexadecimal he, digits?_hexadecimal hf]
    rfl
  obtain ⟨sign, va, ha, rfl⟩ := eq_of_read? h hs (List.cons_ne_nil _ _) hm
  have hred := read?_lead_digit ha hb
  have hgreen := read?_digits hc hd
  have hblue := read?_digits he hf
  have hbounds := And.intro hb.2 (And.intro hc.2 (And.intro hd.2 (And.intro he.2 hf.2)))
  constructor
  · rintro ⟨red, green, blue, -, -, -, hr, hg, hbl, hsum⟩
    omega
  · intro hn
    refine ⟨_, _, _, hred, hgreen, hblue, ?_⟩
    rcases ha.sign_cases with ⟨rfl, hva⟩ | ⟨rfl, rfl⟩ <;> omega

/-- Where a blank is the last character, the parts make up the whole only if it has one digit. -/
theorem pairsMake_iff_of_blank (h : read? [a, b, c, d, e, f] = some n) (hs : AllHexadecimal [b, c, d, e])
    (hf : isBlank f = true) : PairsMake a b c d e f n ↔ 0 ≤ n ∧ n < 16 := by
  obtain ⟨⟨vb, hb⟩, ⟨vc, hc⟩, ⟨vd, hd⟩, ⟨ve, he⟩, -⟩ := by
    simpa only [AllHexadecimal, List.forall_mem_cons] using hs
  have hm (va : Nat) : digits? 16 true va [b, c, d, e] =
      some ((((va * 16 + vb) * 16 + vc) * 16 + vd) * 16 + ve) := by
    simp only [digits?_hexadecimal hb, digits?_hexadecimal hc, digits?_hexadecimal hd,
      digits?_hexadecimal he]
    rfl
  have hshort : read? [a, b, c, d, e] = some n :=
    (read?_concat_of_blank hf [a, b, c, d, e]).symm.trans h
  obtain ⟨sign, va, ha, rfl⟩ := eq_of_read? hshort hs (List.cons_ne_nil _ _) hm
  have hred := read?_lead_digit ha hb
  have hgreen := read?_digits hc hd
  have hblue : read? [e, f] = some (ve : Int) := read?_digit_blank he hf
  have hbounds := And.intro hb.2 (And.intro hc.2 (And.intro hd.2 he.2))
  constructor
  · rintro ⟨red, green, blue, hred', hgreen', hblue', hr, hg, hbl, hsum⟩
    obtain rfl := Option.some.inj (hred.symm.trans hred')
    obtain rfl := Option.some.inj (hgreen.symm.trans hgreen')
    obtain rfl := Option.some.inj (hblue.symm.trans hblue')
    rcases ha.sign_cases with ⟨rfl, hva⟩ | ⟨rfl, rfl⟩ <;> omega
  · rintro ⟨hlow, hhigh⟩
    refine ⟨_, _, _, hred, hgreen, hblue, ?_⟩
    rcases ha.sign_cases with ⟨rfl, hva⟩ | ⟨rfl, rfl⟩ <;> omega

/-- **When the parts make up the whole.** -/
theorem pairsMake_iff (h : read? [a, b, c, d, e, f] = some n) :
    PairsMake a b c d e f n ↔
      0 ≤ n ∧
        (AllHexadecimal [b, c, d, e, f] ∨ AllHexadecimal [b, c, d, e] ∧ isBlank f = true ∧ n < 16) := by
  constructor
  · intro hmake
    obtain ⟨hs, hf | hf⟩ := digits_of_pairs h hmake
    · have hall : AllHexadecimal [b, c, d, e, f] := by
        simp only [AllHexadecimal, List.forall_mem_cons] at hs ⊢
        exact ⟨hs.1, hs.2.1, hs.2.2.1, hs.2.2.2.1, hf, by simp⟩
      exact ⟨(pairsMake_iff_of_digits h hall).mp hmake, .inl hall⟩
    · obtain ⟨hlow, hhigh⟩ := (pairsMake_iff_of_blank h hs hf).mp hmake
      exact ⟨hlow, .inr ⟨hs, hf, hhigh⟩⟩
  · rintro ⟨hlow, hs | ⟨hs, hf, hhigh⟩⟩
    · exact (pairsMake_iff_of_digits h hs).mpr hlow
    · exact (pairsMake_iff_of_blank h hs hf).mpr ⟨hlow, hhigh⟩

end Six

/-! ### The parts of a color -/

namespace Color

variable {a b c d e f : Char} {text : String} {n red green blue : Int}

/-- The parts of a color are bytes, and these make up a number. -/
def Makes (text : String) (n : Int) : Prop :=
  ∃ red green blue : Int, components text = .ok (red, green, blue) ∧
    (0 ≤ red ∧ red ≤ 255) ∧ (0 ≤ green ∧ green ≤ 255) ∧ (0 ≤ blue ∧ blue ≤ 255) ∧
    red * 65536 + green * 256 + blue = n

theorem component_pair :
    component [a, b] = .ok n ↔ read? [asciiDigit a, asciiDigit b] = some n := by
  have hread : parse? 16 (String.ofList [a, b]) = read? [asciiDigit a, asciiDigit b] := parse?_ofList [a, b]
  simp only [component, hread]
  cases read? [asciiDigit a, asciiDigit b] <;> simp

theorem components_eq_ok (htext : text.toList = ['#', a, b, c, d, e, f]) (ha : a ≠ '#') :
    components text = .ok (red, green, blue) ↔
      component [a, b] = .ok red ∧ component [c, d] = .ok green ∧ component [e, f] = .ok blue := by
  have hdigits : text.toList.dropWhile (· = '#') = [a, b, c, d, e, f] := by
    simp [htext, ha]
  unfold components
  simp only [hdigits, List.take, List.drop]
  cases component [a, b] with
  | error fault => simp [bind, Except.bind]
  | ok red' =>
    cases component [c, d] with
    | error fault => simp [bind, Except.bind]
    | ok green' =>
      cases component [e, f] with
      | error fault => simp [bind, Except.bind]
      | ok blue' => simp [bind, Except.bind, pure, Except.pure]

theorem makes_iff_pairsMake (htext : text.toList = ['#', a, b, c, d, e, f]) (ha : a ≠ '#') :
    Makes text n ↔
      PairsMake (asciiDigit a) (asciiDigit b) (asciiDigit c) (asciiDigit d) (asciiDigit e)
        (asciiDigit f) n := by
  simp only [Makes, PairsMake, components_eq_ok htext ha, component_pair, and_assoc]

/-- A color whose parts are bytes can be read. -/
theorem ofText_of_makes (h : Makes text n) :
    ∃ color, ofText text = .ok color ∧
      (color.red.toNat * 65536 + color.green.toNat * 256 + color.blue.toNat : Int) = n := by
  obtain ⟨red, green, blue, hcomponents, hred, hgreen, hblue, rfl⟩ := h
  have hbyte {part : Int} (h : 0 ≤ part ∧ part ≤ 255) : byte part = .ok (UInt8.ofNat part.toNat) :=
    if_pos (by omega)
  have hvalue {part : Int} (h : 0 ≤ part ∧ part ≤ 255) :
      ((UInt8.ofNat part.toNat).toNat : Int) = part := by
    rw [UInt8.toNat_ofNat_of_lt' (by simp only [UInt8.size]; omega)]
    omega
  refine ⟨⟨UInt8.ofNat red.toNat, UInt8.ofNat green.toNat, UInt8.ofNat blue.toNat⟩, ?_, ?_⟩
  · simp only [ofText, hcomponents, bind, Except.bind, hbyte hred, hbyte hgreen, hbyte hblue]
    rfl
  · rw [hvalue hred, hvalue hgreen, hvalue hblue]

end Color

namespace Window

/-- Two colors that can be read are never at fault. -/
theorem make_color_ne {foreground background : String} {front back : Color}
    (hforeground : Color.ofText foreground = .ok front) (hbackground : Color.ofText background = .ok back)
    (screen : Int → Int → Except Refusal (Nat × Nat)) (scale : Int) (title : String)
    (cause : ColorFault) :
    make screen scale foreground background title ≠ .error (.color cause) := by
  intro h
  simp only [make, hforeground, hbackground, Except.mapError, bind, Except.bind] at h
  cases hsize : screen (displayWidth * scale) (displayHeight * scale) with
  | error refusal =>
    rw [hsize] at h
    cases h
  | ok size =>
    rw [hsize] at h
    dsimp only at h
    split at h <;> cases h

end Window

namespace Settings

variable {name text : String} {v : Toml.Value}

/-- An accepted color is a mark and six characters, which are an integer together. -/
theorem digits_of_color (h : color name v = .ok text) :
    ∃ a b c d e f n, text.toList = ['#', a, b, c, d, e, f] ∧
      parse? 16 (String.ofList [a, b, c, d, e, f]) = some n := by
  unfold color at h
  split at h
  case h_2 => cases h
  case h_1 s =>
    split at h
    case h_2 => cases h
    case h_1 digits htext =>
      split at h
      case isTrue => cases h
      case isFalse hlength =>
        split at h
        case h_2 => cases h
        case h_1 n hn =>
          cases h
          match digits, Decidable.not_not.mp hlength with
          | [a, b, c, d, e, f], _ => exact ⟨a, b, c, d, e, f, n, htext, hn⟩

/-- **Which accepted colors can be used.**  An accepted color is a mark and six characters, and these are
one integer.  Its three parts can be read, are bytes, and make up this integer exactly if it is not
negative and all characters but the first are digits, or all but the first and the last, which is a blank,
and the integer is less than sixteen.  So a color that is written in six digits can always be used.

The window never fails on account of a color that can be used, beside any other that can be read. -/
theorem color_makes_iff (h : color name v = .ok text) :
    ∃ a b c d e f n, text.toList = ['#', a, b, c, d, e, f] ∧
      parse? 16 (String.ofList [a, b, c, d, e, f]) = some n ∧
      (Color.Makes text n ↔ 0 ≤ n ∧
        (AllHexadecimal [b, c, d, e, f] ∨ AllHexadecimal [b, c, d, e] ∧ isBlank f = true ∧ n < 16)) ∧
      (AllHexadecimal [a, b, c, d, e, f] → Color.Makes text n) ∧
      (Color.Makes text n → ∀ other color, Color.ofText other = .ok color →
        ∀ screen scale title cause,
          Window.make screen scale text other title ≠ .error (.color cause) ∧
          Window.make screen scale other text title ≠ .error (.color cause)) := by
  obtain ⟨a, b, c, d, e, f, n, htext, hn⟩ := digits_of_color h
  have hread : read? [asciiDigit a, asciiDigit b, asciiDigit c, asciiDigit d, asciiDigit e, asciiDigit f] =
      some n := (parse?_ofList [a, b, c, d, e, f]).symm.trans hn
  have ha : a ≠ '#' := by
    rintro rfl
    rcases first_of_read? hread with hblank | hsign | hinner
    · exact absurd hblank (by decide)
    · exact absurd hsign (by decide)
    · have hne : asciiDigit '#' ≠ '#' := hinner.ne (by decide) (by decide)
      exact hne (by decide)
  have hmakes : Color.Makes text n ↔ 0 ≤ n ∧
      (AllHexadecimal [b, c, d, e, f] ∨ AllHexadecimal [b, c, d, e] ∧ isBlank f = true ∧ n < 16) := by
    rw [Color.makes_iff_pairsMake htext ha, pairsMake_iff hread]
    simp only [AllHexadecimal, List.forall_mem_cons, Hexadecimal.asciiDigit_iff, isBlank_asciiDigit]
  refine ⟨a, b, c, d, e, f, n, htext, hn, hmakes, ?_, ?_⟩
  · intro hall
    have hdigits : AllHexadecimal ([a, b, c, d, e, f].map asciiDigit) := by
      intro mapped hmapped
      obtain ⟨original, hmem, rfl⟩ := List.mem_map.mp hmapped
      obtain ⟨value, hvalue⟩ := hall original hmem
      exact ⟨value, Hexadecimal.asciiDigit_iff.mpr hvalue⟩
    have hvalue : (digits? 16 false 0 ([a, b, c, d, e, f].map asciiDigit)).map (fun m : Nat => (m : Int)) =
        some n := hdigits.read?_eq.symm.trans hread
    obtain ⟨m, -, rfl⟩ := Option.map_eq_some_iff.mp hvalue
    exact hmakes.mpr ⟨Int.natCast_nonneg m, .inl (List.forall_mem_cons.mp hall).2⟩
  · intro hmake other color hother screen scale title cause
    obtain ⟨own, hown, -⟩ := Color.ofText_of_makes hmake
    exact ⟨Window.make_color_ne hown hother screen scale title cause,
      Window.make_color_ne hother hown screen scale title cause⟩

/-- The color that the text has without anything set. -/
theorem color_makes_iff_of_default :
    color "colors.foreground" (.text "#E0E0E0") = .ok "#E0E0E0" ∧ Color.Makes "#E0E0E0" 0xE0E0E0 := by
  have h : color "colors.foreground" (.text "#E0E0E0") = .ok "#E0E0E0" := by decide +kernel
  obtain ⟨a, b, c, d, e, f, n, htext, hn, -, hmakes, -⟩ := color_makes_iff h
  have hchars : ['#', 'E', '0', 'E', '0', 'E', '0'] = ['#', a, b, c, d, e, f] := htext
  cases hchars
  have hvalue : parse? 16 (String.ofList ['E', '0', 'E', '0', 'E', '0']) = some 0xE0E0E0 := by decide +kernel
  have hdigits : AllHexadecimal ['E', '0', 'E', '0', 'E', '0'] := by
    simp only [AllHexadecimal, List.forall_mem_cons]
    exact ⟨⟨14, by decide⟩, ⟨0, by decide⟩, ⟨14, by decide⟩, ⟨0, by decide⟩, ⟨14, by decide⟩,
      ⟨0, by decide⟩, by simp⟩
  obtain rfl : n = 0xE0E0E0 := Option.some.inj (hn.symm.trans hvalue)
  exact ⟨h, hmakes hdigits⟩

/-- An accepted color of which a part is no integer: a mark may stand between two digits of the six, but
not at the end of two. -/
theorem not_makes_of_underscore :
    ¬∀ name v text, color name v = .ok text →
      ∃ n, parse? 16 (String.ofList text.toList.tail) = some n ∧ Color.Makes text n := by
  intro h
  have haccepted : color "colors.foreground" (.text "#1_2345") = .ok "#1_2345" := by decide +kernel
  have hrefused : Color.components "#1_2345" = .error (.notHexadecimal "1_") := by decide +kernel
  obtain ⟨n, -, red, green, blue, hcomponents, -⟩ := h _ _ _ haccepted
  rw [hrefused] at hcomponents
  cases hcomponents

end Settings

end ChipEight
