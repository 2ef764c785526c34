import ProxySwiss.ServerSessionHttps

/-!
# When the parsers return

Every parser comes back except on an address with a scope identifier that the
loop takes in full. A line of a client may carry such an address.
-/

set_option autoImplicit false

namespace ProxySwiss.ParserTermination
open Memory Text InetPton UrlParser ServerSessionHttps

/-- A CONNECT line of three parts whose second one is never parsed to its end. -/
def EndlessLine (line : Bytes) : Prop :=
  ∃ target version, strSplit line (ascii " ") = [ascii "CONNECT",target,version] ∧
    httpVersion version ≠ none ∧ Endless target

theorem parseFirstLine_returns (line : Bytes) (dst : Destination) (httpVer : HttpVersion) :
    (∃ fuel, (parseFirstLine fuel line dst httpVer).isSome) ↔ ¬ EndlessLine line := by
  unfold parseFirstLine EndlessLine
  split
  · rename_i method target version hsplit
    by_cases hm : method = ascii "CONNECT"
    · cases hv : httpVersion version with
      | none => simp [hsplit, hv]
      | some v => simp [hsplit, hm, hv, parse_returns]
    · simp [hsplit, hm]
  · rename_i hno
    refine ⟨fun _ => ?_,fun _ => ⟨0,rfl⟩⟩
    rintro ⟨target,version,hsplit,-⟩
    exact hno _ _ _ hsplit

/-- A parser that returns does so with more rounds as well. -/
theorem parseFirstLine_mono (fuel fuel' : ℕ) (line : Bytes) (dst : Destination)
    (httpVer : HttpVersion) (h : (parseFirstLine fuel line dst httpVer).isSome)
    (hf : fuel ≤ fuel') : (parseFirstLine fuel' line dst httpVer).isSome := by
  have hparse : ∀ target : Bytes, (parse fuel target).isSome → (parse fuel' target).isSome := by
    intro target
    rw [parse_isSome, parse_isSome]
    intro h host hb
    obtain ⟨r,hr⟩ := Option.isSome_iff_exists.mp (h host hb)
    rw [fromStringIpv6_mono fuel fuel' host r hr hf]
    rfl
  unfold parseFirstLine at h ⊢
  split at h
  · split_ifs at h ⊢
    · rfl
    · rename_i version _ _
      cases hv : httpVersion version with
      | none => rfl
      | some v =>
        simp only [hv, Option.isSome_map] at h ⊢
        exact hparse _ h
  · rfl

/-- What the parsers return on, for strings of either kind and for the first
line of a request. -/
theorem parsers_return_iff {T : Type} [CharT T] :
    (∀ src, (∃ fuel, (inetPton6 fuel src).isSome) ↔ ¬ Scoped (cstr src)) ∧
    (∀ str : List T, ∃ fuel, (fromStringIpv4 fuel str).isSome) ∧
    (∀ str : List T, (∃ fuel, (fromStringIpv6 fuel str).isSome) ↔ ¬ Scoped (hostText str)) ∧
    (∀ str : List T, (∃ fuel, (fromString fuel str).isSome) ↔ ¬ Scoped (hostText str)) ∧
    (∀ url : List T, (∃ fuel, (parse fuel url).isSome) ↔ ¬ Endless url) ∧
    (∀ line dst httpVer, (∃ fuel, (parseFirstLine fuel line dst httpVer).isSome) ↔
      ¬ EndlessLine line) :=
  ⟨inetPton6_returns,fromStringIpv4_returns,fromStringIpv6_returns,fromString_returns,parse_returns,
    parseFirstLine_returns⟩

theorem loopback_scoped : Scoped (ascii "::1%1") :=
  ⟨[[],[],[0x31]],[0x31],rfl,by simp,by simpa using ⟨fits_nil _ _ _ (by decide),1,rfl,by decide⟩,
    ⟨1,rfl,by decide⟩,.inl (by decide)⟩

/-- One line of a client keeps the server from ever returning. -/
theorem scope_never_returns :
    (∀ fuel, fromStringIpv6 fuel (ascii "::1%1") = none) ∧
    ∀ fuel, parseFirstLine fuel (ascii "CONNECT [::1%1]:80 HTTP/1.1") {} .http10 = none := by
  have hip : ¬ ∃ fuel, (fromStringIpv6 fuel (ascii "::1%1")).isSome := by
    rw [fromStringIpv6_returns]
    exact not_not.mpr loopback_scoped
  have hline : ¬ ∃ fuel,
      (parseFirstLine fuel (ascii "CONNECT [::1%1]:80 HTTP/1.1") {} .http10).isSome := by
    rw [parseFirstLine_returns, not_not]
    exact ⟨ascii "[::1%1]:80",ascii "HTTP/1.1",by decide,by decide,ascii "::1%1",by decide,
      loopback_scoped⟩
  constructor
  · intro fuel
    exact Option.not_isSome_iff_eq_none.mp fun h => hip ⟨fuel,h⟩
  · intro fuel
    exact Option.not_isSome_iff_eq_none.mp fun h => hline ⟨fuel,h⟩

end ProxySwiss.ParserTermination
