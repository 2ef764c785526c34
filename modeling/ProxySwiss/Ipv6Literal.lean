import ProxySwiss.InetPtonTaken
import ProxySwiss.Ipv6Text

/-!
# Addresses in hexadecimal

The loop takes more than the text forms of addresses: it does not count the
groups of a text without a gap, and it lets a group be empty at any place.
Beyond that only what stands before the first zero is looked at, and of a wide
character only its low octet.
-/

set_option autoImplicit false

namespace ProxySwiss.Ipv6Literal
open Memory Text InetPton

/-- The empty fields that are neither the first nor the last. -/
def gaps (fields : List Bytes) : ℕ := fields.tail.dropLast.count []

/-- A colon at an end of the text that does not belong to a gap. -/
def Dangling (fields : List Bytes) : Prop :=
  (∃ g gs, fields = []::g::gs ∧ g ≠ []) ∨ ∃ g gs, fields = gs ++ [g,[]] ∧ g ≠ []

/-- Fields that the loop takes though they are not those of an address. -/
inductive Odd (fields : List Bytes) : Prop
  | few (hgaps : gaps fields = 0) (hlen : fields.length < 8)
  | dangling (h : Dangling fields)
  | gaps (h : 2 ≤ gaps fields)
  -- a gap that stands for no group
  | full (hlen : fields.length = 9) (hcount : fields.count [] = 1)

/-- The groups at one side of a gap, as fields. -/
def padded (gs : List Bytes) : List Bytes := if gs = [] then [[]] else gs

inductive Shape (fields : List Bytes) : Prop
  | full (hlen : fields.length = 8) (hno : [] ∉ fields)
  | gap (fs bs : List Bytes) (h : fields = padded fs ++ []::padded bs) (hfs : [] ∉ fs)
      (hbs : [] ∉ bs) (hlen : fs.length+bs.length < 8)

theorem padded_ne (gs : List Bytes) : padded gs ≠ [] := by
  unfold padded
  split_ifs with h
  · simp
  · exact h

theorem padded_cases (gs : List Bytes) : gs = [] ∧ padded gs = [[]] ∨ gs ≠ [] ∧ padded gs = gs := by
  by_cases h : gs = []
  · exact .inl ⟨h,if_pos h⟩
  · exact .inr ⟨h,if_neg h⟩

theorem padded_length (gs : List Bytes) (h : [] ∉ gs) :
    gs.length+(padded gs).count [] = (padded gs).length := by
  rcases padded_cases gs with ⟨rfl,hp⟩ | ⟨-,hp⟩
  · rfl
  · rw [hp, List.count_eq_zero.mpr h, Nat.add_zero]

theorem exists_padded (gs : List Bytes) (hne : gs ≠ []) (h : [] ∉ gs ∨ gs = [[]]) :
    ∃ fs, padded fs = gs ∧ [] ∉ fs := by
  rcases h with h | rfl
  · exact ⟨gs,if_neg hne,h⟩
  · exact ⟨[],rfl,by simp⟩

theorem padded_gaps (fs bs : List Bytes) (hfs : [] ∉ fs) (hbs : [] ∉ bs) :
    gaps (padded fs ++ []::padded bs) = 1 := by
  have hfront : (padded fs).tail.count [] = 0 := by
    rcases padded_cases fs with ⟨-,hp⟩ | ⟨-,hp⟩
    · rw [hp]
      rfl
    · rw [hp]
      exact List.count_eq_zero.mpr fun h => hfs (List.mem_of_mem_tail h)
  have hback : (padded bs).dropLast.count [] = 0 := by
    rcases padded_cases bs with ⟨-,hp⟩ | ⟨-,hp⟩
    · rw [hp]
      rfl
    · rw [hp]
      exact List.count_eq_zero.mpr fun h => hbs (List.dropLast_subset _ h)
  rw [gaps, List.tail_append_of_ne_nil (padded_ne fs), List.dropLast_append_of_ne_nil (by simp),
    List.dropLast_cons_of_ne_nil (padded_ne bs), List.count_append, List.count_cons_self, hfront,
    hback]

theorem shape_not_dangling (fs bs : List Bytes) (hfs : [] ∉ fs) (hbs : [] ∉ bs) :
    ¬ Dangling (padded fs ++ []::padded bs) := by
  rintro (⟨g,gs,h,hg⟩ | ⟨g,gs,h,hg⟩)
  · rcases padded_cases fs with ⟨-,hp⟩ | ⟨hne,hp⟩
    · rw [hp] at h
      exact hg (List.cons.inj (List.cons.inj h).2).1.symm
    · obtain ⟨f,fs,rfl⟩ := List.exists_cons_of_ne_nil hne
      rw [hp] at h
      exact hfs (by simp [(List.cons.inj h).1])
  · rcases padded_cases bs with ⟨-,hp⟩ | ⟨hne,hp⟩
    · rw [hp] at h
      have hlast := (List.append_inj' h rfl).2
      exact hg (List.cons.inj hlast).1.symm
    · obtain ⟨bs,b,rfl⟩ := List.eq_nil_or_concat' bs |>.resolve_left hne
      rw [hp] at h
      have hends : (padded fs ++ []::bs) ++ [b] = (gs ++ [g]) ++ [[]] := by simpa using h
      have hlast := (List.append_inj' hends rfl).2
      exact hbs (by simp [(List.cons.inj hlast).1])

theorem shape_not_odd (fields : List Bytes) (h : Shape fields) : ¬ Odd fields := by
  intro hodd
  cases h with
  | full hlen hno =>
    have hgaps : gaps fields = 0 := List.count_eq_zero.mpr fun h =>
      hno (List.mem_of_mem_tail (List.dropLast_subset _ h))
    cases hodd with
    | few _ hfew => omega
    | dangling hd =>
      rcases hd with ⟨g,gs,rfl,-⟩ | ⟨g,gs,rfl,-⟩
      · exact hno (by simp)
      · exact hno (by simp)
    | gaps hmany => omega
    | full hnine _ => omega
  | gap fs bs h hfs hbs hlen =>
    have hgaps := padded_gaps fs bs hfs hbs
    rw [← h] at hgaps
    cases hodd with
    | few hzero _ => omega
    | dangling hd => exact shape_not_dangling fs bs hfs hbs (h ▸ hd)
    | gaps hmany => omega
    | full hnine hcount =>
      have hf := padded_length fs hfs
      have hb := padded_length bs hbs
      rw [h, List.count_append, List.count_cons_self] at hcount
      rw [h, List.length_append, List.length_cons] at hnine
      omega

/-- The first and the last field, with those between them. -/
theorem fields_ends (fields : List Bytes) (h : 2 ≤ fields.length) :
    ∃ f mid l, fields = f::(mid ++ [l]) ∧ fields.tail.dropLast = mid := by
  obtain ⟨f,rest,rfl⟩ := List.exists_cons_of_length_pos (show 0 < fields.length by omega)
  have hne : rest ≠ [] := by
    rintro rfl
    exact absurd h (by simp)
  obtain ⟨mid,l,rfl⟩ := (List.eq_nil_or_concat' rest).resolve_left hne
  exact ⟨f,mid,l,rfl,by simp⟩

/-- At an end that does not dangle an empty field has a gap beside it. -/
theorem front_clean (f : Bytes) (a rest : List Bytes) (ha : [] ∉ a)
    (h : ¬ Dangling (f::(a ++ []::rest))) : [] ∉ f::a ∨ f::a = [[]] := by
  by_cases hf : f = []
  · right
    cases a with
    | nil => rw [hf]
    | cons g gs =>
      have hg : g ≠ [] := fun h0 => ha (by simp [h0])
      exact absurd (.inl ⟨g,gs ++ []::rest,by rw [hf]; rfl,hg⟩) h
  · exact .inl (by simp [Ne.symm hf, ha])

theorem back_clean (l : Bytes) (b rest : List Bytes) (hb : [] ∉ b)
    (h : ¬ Dangling (rest ++ []::(b ++ [l]))) : [] ∉ b ++ [l] ∨ b ++ [l] = [[]] := by
  by_cases hl : l = []
  · right
    rcases List.eq_nil_or_concat' b with rfl | ⟨gs,g,rfl⟩
    · rw [hl]
      rfl
    · have hg : g ≠ [] := fun h0 => hb (by simp [h0])
      exact absurd (.inr ⟨g,rest ++ []::gs,by rw [hl]; simp,hg⟩) h
  · exact .inl (by simp [Ne.symm hl, hb])

/-- Without a gap, eight fields are eight groups. -/
theorem shape_full (fields : List Bytes) (hclean : ¬ Dangling fields) (h0 : gaps fields = 0)
    (height : fields.length = 8) : Shape fields := by
  obtain ⟨f,mid,l,rfl,hmid⟩ := fields_ends fields (by omega)
  have hno : [] ∉ mid := by
    rw [gaps, hmid] at h0
    exact List.count_eq_zero.mp h0
  have hne : mid ≠ [] := by
    rintro rfl
    exact absurd height (by simp)
  refine .full height fun hin => ?_
  simp only [List.mem_cons, List.mem_append, List.not_mem_nil, or_false] at hin
  rcases hin with rfl | hin | rfl
  · obtain ⟨g,gs,rfl⟩ := List.exists_cons_of_ne_nil hne
    exact hclean (.inl ⟨g,gs ++ [l],rfl,fun h => hno (by simp [h])⟩)
  · exact hno hin
  · obtain ⟨gs,g,rfl⟩ := (List.eq_nil_or_concat' mid).resolve_left hne
    exact hclean (.inr ⟨g,f::gs,by simp,fun h => hno (by simp [h])⟩)

/-- With one gap the fields are the groups at its two sides. -/
theorem fields_gap (fields : List Bytes) (hclean : ¬ Dangling fields) (hone : gaps fields = 1) :
    ∃ fs bs, fields = padded fs ++ []::padded bs ∧ [] ∉ fs ∧ [] ∉ bs := by
  have hinner : 0 < fields.tail.dropLast.length :=
    Nat.lt_of_lt_of_le (hone ▸ Nat.one_pos) List.count_le_length
  rw [List.length_dropLast, List.length_tail] at hinner
  obtain ⟨f,mid,l,rfl,hmid⟩ := fields_ends fields (by omega)
  rw [gaps, hmid] at hone
  obtain ⟨a,b,rfl⟩ := List.append_of_mem (List.count_pos_iff.mp (hone ▸ Nat.one_pos))
  rw [List.count_append, List.count_cons_self] at hone
  have ha : [] ∉ a := List.count_eq_zero.mp (by omega)
  have hb : [] ∉ b := List.count_eq_zero.mp (by omega)
  have hfields : f::(a ++ []::b ++ [l]) = (f::a) ++ []::(b ++ [l]) := by simp
  rw [hfields] at hclean ⊢
  obtain ⟨fs,hfs,hfno⟩ := exists_padded (f::a) (by simp) (front_clean f a _ ha hclean)
  obtain ⟨bs,hbs,hbno⟩ := exists_padded (b ++ [l]) (by simp) (back_clean l b _ hb hclean)
  exact ⟨fs,bs,by rw [hfs, hbs],hfno,hbno⟩

theorem shape_iff (fields : List Bytes)
    (hlen : fields.length ≤ 8 ∨ fields.length = 9 ∧ [] ∈ fields.tail.dropLast) :
    Shape fields ↔ ¬ Odd fields := by
  refine ⟨shape_not_odd fields,fun hodd => ?_⟩
  have hclean : ¬ Dangling fields := fun h => hodd (.dangling h)
  rcases Nat.eq_zero_or_pos (gaps fields) with h0 | hpos
  · have hlow : 8 ≤ fields.length := by
      by_contra h
      exact hodd (.few h0 (Nat.lt_of_not_le h))
    rcases hlen with h | ⟨-,hin⟩
    · exact shape_full fields hclean h0 (Nat.le_antisymm h hlow)
    · exact absurd hin (List.count_eq_zero.mp h0)
  · have hone : gaps fields = 1 := by
      by_contra h
      exact hodd (.gaps (by omega))
    obtain ⟨fs,bs,rfl,hfno,hbno⟩ := fields_gap fields hclean hone
    refine .gap fs bs rfl hfno hbno ?_
    have hf := padded_length fs hfno
    have hb := padded_length bs hbno
    by_contra hmany
    -- eight groups and a gap
    simp only [List.length_append, List.length_cons] at hlen
    refine hodd (.full ?_ ?_)
    · rw [List.length_append, List.length_cons]
      omega
    · rw [List.count_append, List.count_cons_self]
      omega

theorem joined_intercalate (fields : List Bytes) : joined fields = [0x3a].intercalate fields := by
  induction fields with
  | nil => rfl
  | cons f fs ih =>
    cases fs with
    | nil => simp [joined, List.intercalate]
    | cons g gs =>
      rw [joined, ih]
      simp [List.intercalate]

theorem fields_unique (fs gs : List Bytes) (hfs : ∀ f ∈ fs, 0x3a ∉ f) (hgs : ∀ g ∈ gs, 0x3a ∉ g)
    (hf : fs ≠ []) (hg : gs ≠ []) (h : joined fs = joined gs) : fs = gs := by
  rw [joined_intercalate, joined_intercalate] at h
  rw [← List.splitOn_intercalate 0x3a hfs hf, h, List.splitOn_intercalate 0x3a hgs hg]

theorem joined_append (fs gs : List Bytes) (hf : fs ≠ []) (hg : gs ≠ []) :
    joined (fs ++ gs) = joined fs ++ 0x3a::joined gs := by
  induction fs with
  | nil => exact absurd rfl hf
  | cons f fs ih =>
    cases fs with
    | nil =>
      obtain ⟨g,gs,rfl⟩ := List.exists_cons_of_ne_nil hg
      rfl
    | cons x xs =>
      have hrest := ih (by simp)
      simp only [List.cons_append, joined] at hrest ⊢
      rw [hrest, List.append_assoc, List.cons_append]

theorem joined_padded (gs : List Bytes) : joined (padded gs) = joined gs := by
  rcases padded_cases gs with ⟨rfl,hp⟩ | ⟨-,hp⟩ <;> rw [hp]
  rfl

theorem joined_gap (fs bs : List Bytes) :
    joined (padded fs ++ []::padded bs) = joined fs ++ 0x3a::0x3a::joined bs := by
  obtain ⟨b,rest,hb⟩ := List.exists_cons_of_ne_nil (padded_ne bs)
  rw [joined_append _ _ (padded_ne fs) (by simp), joined_padded, hb, joined, ← hb, joined_padded]
  rfl

theorem numbers_hex (gs : List Bytes) (ws : List ℕ) (h : List.Forall₂ HexNumber gs ws) :
    [] ∉ gs ∧ ∀ g ∈ gs, 0x3a ∉ g := by
  induction h with
  | nil => simp
  | @cons g w gs ws hg _ ih =>
    obtain ⟨hne,hcolon⟩ := ih
    refine ⟨by simp [hne, hg.1.symm],List.forall_mem_cons.mpr ⟨fun hin => ?_,hcolon⟩⟩
    exact fits_mem _ _ _ g _ (hexNumber_fits g w hg) hin hexDigit_colon

theorem hex_numbers (gs : List Bytes) (hex : ∀ g ∈ gs, Fits hexDigit 16 0 g) (hno : [] ∉ gs) :
    ∃ ws, List.Forall₂ HexNumber gs ws := by
  induction gs with
  | nil => exact ⟨[],.nil⟩
  | cons g gs ih =>
    obtain ⟨w,hw⟩ := hex g (by simp)
    obtain ⟨ws,hws⟩ := ih (fun x hx => hex x (by simp [hx])) fun h => hno (by simp [h])
    exact ⟨w::ws,.cons ⟨fun h => hno (by simp [h]),hw⟩ hws⟩

theorem padded_mem (gs : List Bytes) (g : Bytes) (h : g ∈ padded gs) : g = [] ∨ g ∈ gs := by
  rcases padded_cases gs with ⟨-,hp⟩ | ⟨-,hp⟩
  · rw [hp] at h
    exact .inl (List.mem_singleton.mp h)
  · exact .inr (hp ▸ h)

theorem taken_colon (text : Bytes) (fields : List Bytes) (h : Taken text fields) :
    ∀ f ∈ fields, 0x3a ∉ f :=
  fun f hf hin => fits_mem _ _ _ f _ (h.hex f hf) hin hexDigit_colon

theorem padded_clean (gs : List Bytes) (h : ∀ g ∈ gs, 0x3a ∉ g) : ∀ g ∈ padded gs, 0x3a ∉ g := by
  intro g hg
  rcases padded_mem gs g hg with rfl | hg
  · simp
  · exact h g hg

theorem form_shape (text : Bytes) (fields : List Bytes) (x : Bytes) (h : Taken text fields)
    (hx : Ipv6Form text x) : Shape fields := by
  have hcolon := taken_colon text fields h
  cases hx with
  | full gs ws hgs hlen =>
    obtain ⟨hno,hgc⟩ := numbers_hex gs ws hgs
    have hgl := hgs.length_eq
    have hne : gs ≠ [] := by
      rintro rfl
      exact absurd (hgl.trans hlen) (by decide)
    obtain rfl := fields_unique _ _ hgc hcolon hne h.nonempty h.joined
    exact .full (hgl.trans hlen) hno
  | gap fs bs us vs zeros hfs hbs hlen hzeros =>
    obtain ⟨hfno,hfc⟩ := numbers_hex fs us hfs
    obtain ⟨hbno,hbc⟩ := numbers_hex bs vs hbs
    have hfl := hfs.length_eq
    have hbl := hbs.length_eq
    have hclean : ∀ f ∈ padded fs ++ []::padded bs, 0x3a ∉ f := List.forall_mem_append.mpr
      ⟨padded_clean fs hfc,List.forall_mem_cons.mpr ⟨by simp,padded_clean bs hbc⟩⟩
    have htext := (joined_gap fs bs).trans h.joined
    have hfields := fields_unique _ _ hclean hcolon (by simp) h.nonempty htext
    exact .gap fs bs hfields.symm hfno hbno (by omega)

theorem shape_form (text : Bytes) (fields : List Bytes) (h : Taken text fields)
    (hs : Shape fields) : ∃ x, Ipv6Form text x := by
  cases hs with
  | full hlen hno =>
    obtain ⟨ws,hws⟩ := hex_numbers fields h.hex hno
    have hform := Ipv6Form.full fields ws hws (hws.length_eq ▸ hlen)
    rw [← h.joined] at hform
    exact ⟨_,hform⟩
  | gap fs bs hfields hfno hbno hlen =>
    have hin : ∀ gs, (∀ g ∈ padded gs, g ∈ fields) → [] ∉ gs →
        ∀ g ∈ gs, Fits hexDigit 16 0 g := by
      intro gs hgs hno g hg
      have hp : padded gs = gs := if_neg (List.ne_nil_of_mem hg)
      exact h.hex g (hgs g (hp.symm ▸ hg))
    obtain ⟨us,hus⟩ := hex_numbers fs (hin fs (by rw [hfields]; simp +contextual) hfno) hfno
    obtain ⟨vs,hvs⟩ := hex_numbers bs (hin bs (by rw [hfields]; simp +contextual) hbno) hbno
    have hfl := hus.length_eq
    have hbl := hvs.length_eq
    have hform := Ipv6Form.gap fs bs us vs (8-us.length-vs.length) hus hvs (by omega) (by omega)
    rw [← joined_gap, ← hfields, ← h.joined] at hform
    exact ⟨_,hform⟩

/-- Fields that the loop takes are those of an address by their shape alone. -/
theorem form_iff (text : Bytes) (fields : List Bytes) (h : Taken text fields) :
    (∃ x, Ipv6Form text x) ↔ Shape fields :=
  ⟨fun ⟨x,hx⟩ => form_shape text fields x h hx,shape_form text fields h⟩

section Strings

variable {T : Type} [CharT T]

/-- The text form of the address with the given octets, in either kind of string. -/
def Denotes (s : List T) (x : Bytes) : Prop := ∃ text, s = strToTstr text ∧ Ipv6Form text x

def Hexadecimal (c : T) : Prop := ∃ b, c = CharT.ofChar b ∧ (b = 0x3a ∨ hexDigit b ≠ none)

/-- What is promised of the routine. -/
structure Recognised (s : List T) : Prop where
  returns : ∃ fuel, (fromStringIpv6 fuel s).isSome
  accepted : ∀ fuel r, fromStringIpv6 fuel s = some r → (r.isSome ↔ ∃ x, Denotes s x)
  octets : ∀ fuel ip x, fromStringIpv6 fuel s = some (some ip) → Denotes s x →
    ∃ a, ip = .v6 a ∧ a.bytes = x

/-- A text that is taken for an address, with another character than a digit or
a colon in it, or with fields that no address has. -/
def Loose (s : List T) : Prop :=
  s ≠ [] ∧ ∃ fields, Taken (hostText s) fields ∧ ((∃ c ∈ s, ¬ Hexadecimal c) ∨ Odd fields)

theorem fromStringIpv6_eq (fuel : ℕ) (s : List T) (hs : s ≠ []) : fromStringIpv6 fuel s =
    (Loop.eval round fuel { p := hostText s }).map fun r => r.map .v6 := by
  rw [fromStringIpv6, if_neg hs, inetPtonWide, inetPton, inetPton6, hostText_wide]

theorem accepted_iff (s : List T) : (∃ fuel ip, fromStringIpv6 fuel s = some (some ip)) ↔
    s ≠ [] ∧ ∃ fields, Taken (hostText s) fields := by
  rw [← taken_iff]
  constructor
  · rintro ⟨fuel,ip,h⟩
    have hs : s ≠ [] := by
      rintro rfl
      simp [fromStringIpv6] at h
    rw [fromStringIpv6_eq fuel s hs] at h
    obtain ⟨r,hr,hip⟩ := Option.map_eq_some_iff.mp h
    obtain ⟨a,rfl,-⟩ := Option.map_eq_some_iff.mp hip
    exact ⟨hs,a,Loop.Returns.of_eval _ _ _ _ hr⟩
  · rintro ⟨hs,a,N,hN⟩
    refine ⟨N,.v6 a,?_⟩
    rw [fromStringIpv6_eq N s hs, hN N le_rfl]
    rfl

theorem denotes_text (text : Bytes) (x : Bytes) (h : Ipv6Form text x) :
    hostText (strToTstr text : List T) = text :=
  (hostText_strToTstr text).trans (cstr_ipv6Form text x h)

theorem form_length (s x : Bytes) (h : Ipv6Form s x) : x.length = 16 := by
  cases h with
  | full gs ws _ hlen =>
    have := octets_length ws
    omega
  | gap fs bs us vs zeros _ _ hlen _ =>
    have hu := octets_length us
    have hv := octets_length vs
    simp only [List.length_append, List.length_replicate]
    omega

theorem denotes_taken (s : List T) (x : Bytes) (h : Denotes s x) : ∃ a : Buffer 16, a.bytes = x ∧
    ∃ N, ∀ fuel, N ≤ fuel → fromStringIpv6 fuel s = some (some (.v6 a)) := by
  obtain ⟨text,rfl,hform⟩ := h
  exact ⟨⟨x,form_length text x hform⟩,rfl,ipv6Form_taken text ⟨x,form_length text x hform⟩ hform⟩

theorem plain_string (s : List T) (h : ∀ c ∈ s, Hexadecimal c) : s = strToTstr (hostText s) := by
  have hnarrow : ∀ c ∈ s, CharT.ofChar (CharT.toChar c) = c ∧ CharT.toChar c ≠ 0 := by
    intro c hc
    obtain ⟨b,rfl,hb⟩ := h c hc
    rw [CharT.toChar_ofChar]
    refine ⟨rfl,?_⟩
    rintro rfl
    exact absurd hb (by decide)
  have htext : hostText s = s.map CharT.toChar := by
    apply List.takeWhile_eq_self_iff.mpr
    intro c hc
    obtain ⟨d,hd,rfl⟩ := List.mem_map.mp hc
    simpa using (hnarrow d hd).2
  rw [htext, strToTstr, List.map_map]
  exact (List.map_id' s).symm.trans (List.map_congr_left fun c hc => (hnarrow c hc).1.symm)

theorem denotes_not_odd (s : List T) (x : Bytes) (fields : List Bytes) (h : Denotes s x)
    (ht : Taken (hostText s) fields) : (∀ c ∈ s, Hexadecimal c) ∧ ¬ Odd fields := by
  obtain ⟨text,rfl,hform⟩ := h
  rw [denotes_text text x hform] at ht
  refine ⟨fun c hc => ?_,(shape_iff fields ht.length).mp ((form_iff text fields ht).mp ⟨x,hform⟩)⟩
  obtain ⟨b,hb,rfl⟩ := List.mem_map.mp hc
  exact ⟨b,rfl,ipv6Form_mem text x hform b hb⟩

/-- Loose are just the texts that are accepted and are no text forms. -/
theorem loose_iff (s : List T) : Loose s ↔
    (∃ fuel ip, fromStringIpv6 fuel s = some (some ip)) ∧ ¬ ∃ x, Denotes s x := by
  rw [accepted_iff]
  constructor
  · rintro ⟨hs,fields,ht,hbad⟩
    refine ⟨⟨hs,fields,ht⟩,fun ⟨x,hx⟩ => ?_⟩
    obtain ⟨hhex,hodd⟩ := denotes_not_odd s x fields hx ht
    rcases hbad with ⟨c,hc,hno⟩ | h
    · exact hno (hhex c hc)
    · exact hodd h
  · rintro ⟨⟨hs,fields,ht⟩,hno⟩
    refine ⟨hs,fields,ht,?_⟩
    by_contra hgood
    simp only [not_or, not_exists, not_and, not_not] at hgood
    obtain ⟨hhex,hodd⟩ := hgood
    obtain ⟨x,hx⟩ := (form_iff _ fields ht).mpr ((shape_iff fields ht.length).mpr hodd)
    exact hno ⟨x,hostText s,plain_string s hhex,hx⟩

/-- A string is recognised by the text forms exactly where it is not loose and
the loop returns. -/
theorem ipv6_literal (s : List T) : Recognised s ↔ ¬ Loose s ∧ ¬ Scoped (hostText s) := by
  rw [loose_iff, ← fromStringIpv6_returns]
  constructor
  · intro hr
    refine ⟨?_,hr.returns⟩
    rintro ⟨⟨fuel,ip,hip⟩,hno⟩
    exact hno ((hr.accepted fuel _ hip).mp rfl)
  · rintro ⟨hloose,hret⟩
    have hsame : ∀ fuel r x, fromStringIpv6 fuel s = some r → Denotes s x →
        ∃ a : Buffer 16, a.bytes = x ∧ r = some (.v6 a) := by
      intro fuel r x hr hx
      obtain ⟨a,ha,N,hN⟩ := denotes_taken s x hx
      have hmore := hN (N+fuel) (Nat.le_add_right _ _)
      rw [fromStringIpv6_mono fuel _ s r hr (Nat.le_add_left _ _)] at hmore
      exact ⟨a,ha,Option.some.inj hmore⟩
    refine ⟨hret,fun fuel r hr => ⟨fun hsome => ?_,?_⟩,fun fuel ip x hip hx => ?_⟩
    · obtain ⟨ip,rfl⟩ := Option.isSome_iff_exists.mp hsome
      by_contra hno
      exact hloose ⟨⟨fuel,ip,hr⟩,hno⟩
    · rintro ⟨x,hx⟩
      obtain ⟨a,-,rfl⟩ := hsame fuel r x hr hx
      rfl
    · obtain ⟨a,ha,hr⟩ := hsame fuel _ x hip hx
      exact ⟨a,Option.some.inj hr,ha⟩

end Strings

/-- Two groups without a gap are taken for a whole address. -/
theorem two_groups : (0x25 : UInt8) ∉ ascii "1:2" ∧ ¬ Recognised (ascii "1:2") := by
  refine ⟨by decide,fun hr => ?_⟩
  have hhex : ∀ f ∈ [ascii "1",ascii "2"], Fits hexDigit 16 0 f := by
    intro f hf
    rcases List.mem_pair.mp hf with rfl | rfl
    · exact ⟨1,rfl,by decide⟩
    · exact ⟨2,rfl,by decide⟩
  have hfields : Taken (hostText (ascii "1:2")) [ascii "1",ascii "2"] :=
    ⟨rfl,by simp,hhex,.inl (by decide)⟩
  obtain ⟨x,hx⟩ := (hr.accepted 20 _ rfl).mp rfl
  exact (denotes_not_odd _ x _ hx hfields).2 (.few rfl (by decide))

end ProxySwiss.Ipv6Literal
