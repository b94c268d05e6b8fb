import DOpenWrt.Rtp2httpd.HttpQuery
import DOpenWrt.Rtp2httpd.RewriteM3uLine
import DOpenWrt.Rtp2httpd.M3uNames

/-!
# Hosts and ports (`utils.c`)

`parse_host_port` takes back apart what `format_host_port_for_url` puts together, as `http_url_decode` does with what
`http_url_encode` writes. A host with a colon is put in brackets, with one colon as with several.
-/

namespace Rtp2httpd
open CString

/-! ### The source -/

/-- The last part of `parse_host_port`: the port, if there is one and it is asked for. No result for -1. -/
def parsePort (portStr : Option (List UInt8)) (port : Option Int) : Option (Option Int) :=
  if portStr.getD [] = [] ∨ port = none then some port
  else
    match strtol (portStr.getD []) with
    | some (parsed, []) => if parsed ≤ 0 ∨ 65535 < parsed then none else some (some parsed)
    | _ => none

/-- `parse_host_port` with a buffer of `hostSize` bytes; `port` is none for a null pointer. No result for -1. -/
def parseHostPort (input : List UInt8) (hostSize : Nat) (port : Option Int) : Option (List UInt8 × Option Int) :=
  if hostSize = 0 then none
  else if input.head? = some (byte '[') then
    if byte ']' ∉ input then none
    else
      let host := (input.drop 1).takeWhile (· ≠ byte ']')
      let behind := ((input.drop 1).dropWhile (· ≠ byte ']')).drop 1
      if host = [] ∨ hostSize ≤ host.length then none
      else if behind.head? = some (byte ':') then (parsePort (some (behind.drop 1)) port).map (host, ·)
      else if behind ≠ [] then none
      else (parsePort none port).map (host, ·)
  else
    let host := input.takeWhile (· ≠ byte ':')
    let behind := (input.dropWhile (· ≠ byte ':')).drop 1
    if byte ':' ∈ behind then
      if hostSize ≤ input.length then none else (parsePort none port).map (input, ·)
    else if byte ':' ∈ input then
      if host = [] ∨ hostSize ≤ host.length then none else (parsePort (some behind) port).map (host, ·)
    else if input = [] ∨ hostSize ≤ input.length then none
    else (parsePort none port).map (input, ·)

/-- The first pass of `http_url_encode`. -/
def encodedLen (s : List UInt8) : Nat :=
  (s.map fun c => if isalnum c ∨ c ∈ str "-_.~/" then 1 else 3).sum

/-! ### Ports -/

/-- `%d` of a port is read back. -/
theorem parsePort_decimal {port : Nat} {old : Int} (hpos : 1 ≤ port) (hle : port ≤ 65535) :
    parsePort (some (decimal port)) (some old) = some (some (port : Int)) := by
  have hasked : ¬ ((some (decimal port)).getD [] = [] ∨ some old = none) :=
    not_or.2 ⟨decimal_ne_nil port, Option.some_ne_none old⟩
  have hrange : ¬ ((port : Int) ≤ 0 ∨ 65535 < (port : Int)) := by omega
  rw [parsePort, if_neg hasked, Option.getD_some, strtol_decimal (hle.trans_lt (by decide))]
  exact if_neg hrange

theorem not_mem_decimal {c : UInt8} (hc : isdigit c = false) (n : Nat) : c ∉ decimal n := fun h =>
  Bool.false_ne_true (hc.symm.trans (mem_decimal h))

/-! ### Hosts -/

/-- A host as it is put into a URL: no name, no IPv4 address and no bare IPv6 address has a bracket in it. -/
structure BareHost (host : List UInt8) : Prop where
  ne_nil : host ≠ []
  noOpen : byte '[' ∉ host
  noClose : byte ']' ∉ host

/-- What stands for the host in a URL. -/
def urlHost (host : List UInt8) : List UInt8 := if byte ':' ∈ host then byte '[' :: (host ++ [byte ']']) else host

/-- The host and the port. -/
def authority (host : List UInt8) (port : Nat) : List UInt8 := urlHost host ++ byte ':' :: decimal port

section
variable {host out : List UInt8} {port hostSize outSize : Nat} {old : Int}

theorem formatHostForUrl_eq (h : BareHost host) (size : Nat) : formatHostForUrl host size = printed size (urlHost host) := by
  have hhead : host.head? ≠ some (byte '[') := fun heq => h.noOpen (List.mem_of_head? heq)
  rw [formatHostForUrl, urlHost]
  by_cases hcolon : byte ':' ∈ host
  · rw [if_pos ⟨hhead, hcolon⟩, if_pos hcolon, List.append_assoc]; rfl
  · rw [if_neg fun h => hcolon h.2, if_neg hcolon]

/-- Without a default port the port is always written. -/
theorem formatHostPortForUrl_eq (h : BareHost host) (port : Nat) (outSize : Nat) :
    formatHostPortForUrl host port 0 outSize =
      if (urlHost host).length < 512 ∧ (authority host port).length < outSize then some (authority host port) else none := by
  have hdecimal : decimalInt (port : Int) = decimal port := by
    rw [decimalInt, if_neg (by omega), Int.natAbs_natCast]; rfl
  have htext : urlHost host ++ str ":" ++ decimalInt port = authority host port := by
    rw [hdecimal, authority, List.append_assoc]; rfl
  have hdefault : ¬ ((0 : Int) < 0 ∧ (port : Int) = 0) := fun h => absurd h.1 (Int.lt_irrefl 0)
  rw [formatHostPortForUrl, formatHostForUrl_eq h, printed]
  by_cases hhost : (urlHost host).length < 512
  · rw [if_pos hhost, Option.bind_some, if_neg hdefault, htext, printed]
    simp only [hhost, true_and]
  · rw [if_neg hhost, if_neg fun h => hhost h.1]; rfl

/-- A host in brackets ends at the closing one. -/
theorem parseHostPort_bracketed (h : BareHost host) (hsize : host.length < hostSize) (hpos : 1 ≤ port)
    (hle : port ≤ 65535) :
    parseHostPort (byte '[' :: (host ++ [byte ']']) ++ byte ':' :: decimal port) hostSize (some old) =
      some (host, some (port : Int)) := by
  have hinput : byte '[' :: (host ++ [byte ']']) ++ byte ':' :: decimal port =
      byte '[' :: (host ++ byte ']' :: byte ':' :: decimal port) := by simp
  have hmem : byte ']' ∈ byte '[' :: (host ++ byte ']' :: byte ':' :: decimal port) := by simp
  have hfull : ¬ (host = [] ∨ hostSize ≤ host.length) := not_or.2 ⟨h.ne_nil, Nat.not_le.2 hsize⟩
  have hopen : (byte '[' :: (host ++ byte ']' :: byte ':' :: decimal port)).head? = some (byte '[') := rfl
  have hcolon : (byte ':' :: decimal port).head? = some (byte ':') := rfl
  rw [hinput, parseHostPort, if_neg (by omega), if_pos hopen, if_neg (not_not.2 hmem)]
  simp only [List.drop_one, List.tail_cons, takeWhile_sep h.noClose, dropWhile_sep h.noClose, if_neg hfull, if_pos hcolon,
    parsePort_decimal hpos hle, Option.map_some]

/-- A host without a colon ends at the colon before the port. -/
theorem parseHostPort_plain (h : BareHost host) (hcolon : byte ':' ∉ host) (hsize : host.length < hostSize)
    (hpos : 1 ≤ port) (hle : port ≤ 65535) :
    parseHostPort (host ++ byte ':' :: decimal port) hostSize (some old) = some (host, some (port : Int)) := by
  obtain ⟨c, tail, hcons⟩ := List.exists_cons_of_ne_nil h.ne_nil
  have hhead : ¬ (host ++ byte ':' :: decimal port).head? = some (byte '[') := by
    rw [hcons]
    exact fun heq => h.noOpen (hcons ▸ Option.some.inj heq ▸ List.mem_cons_self)
  have hmem : byte ':' ∈ host ++ byte ':' :: decimal port := by simp
  have hfull : ¬ (host = [] ∨ hostSize ≤ host.length) := not_or.2 ⟨h.ne_nil, Nat.not_le.2 hsize⟩
  rw [parseHostPort, if_neg (by omega), if_neg hhead]
  simp only [takeWhile_sep hcolon, dropWhile_sep hcolon, List.drop_one, List.tail_cons,
    if_neg (not_mem_decimal (by decide : isdigit (byte ':') = false) port), if_pos hmem, if_neg hfull,
    parsePort_decimal hpos hle, Option.map_some]

theorem parseHostPort_authority (h : BareHost host) (hsize : host.length < hostSize) (hpos : 1 ≤ port)
    (hle : port ≤ 65535) :
    parseHostPort (authority host port) hostSize (some old) = some (host, some (port : Int)) := by
  rw [authority, urlHost]
  split
  · exact parseHostPort_bracketed h hsize hpos hle
  · next hcolon => exact parseHostPort_plain h hcolon hsize hpos hle

end

/-! ### Percent encoding -/

theorem hexValue_hexChars : ∀ n < 16, httpChunkedHexValue (hexChars.getD n 0) = some n := by decide

theorem percent_not_plain : ¬ (isalnum percent ∨ percent ∈ str "-_.~/") := by decide

theorem httpUrlEncode_cons (c : UInt8) (s : List UInt8) : httpUrlEncode (c :: s) =
    (if isalnum c ∨ c ∈ str "-_.~/" then [c]
      else [percent, hexChars.getD (c.toNat / 16) 0, hexChars.getD (c.toNat % 16) 0]) ++ httpUrlEncode s :=
  List.flatMap_cons

theorem httpUrlDecode_httpUrlEncode (s : List UInt8) : httpUrlDecode (httpUrlEncode s) = some s := by
  induction s with
  | nil => rfl
  | cons c s ih =>
    rw [httpUrlEncode_cons]
    split
    · next hplain =>
      have hc : c ≠ percent := fun heq => percent_not_plain (heq ▸ hplain)
      rw [List.singleton_append, httpUrlDecode.eq_def]
      simp only [if_neg hc, ih, Option.map_some]
    · have hhi := hexValue_hexChars (c.toNat / 16) (by have := c.toNat_lt; omega)
      have hlo := hexValue_hexChars (c.toNat % 16) (Nat.mod_lt _ (by decide))
      have hbyte : UInt8.ofNat (16 * (c.toNat / 16) + c.toNat % 16) = c := by
        rw [Nat.div_add_mod, UInt8.ofNat_toNat]
      simp only [List.cons_append, List.nil_append, httpUrlDecode, if_true, hhi, hlo, ih, Option.map_some, hbyte]

/-- The second pass writes as many bytes as the first one counts. -/
theorem length_httpUrlEncode (s : List UInt8) : (httpUrlEncode s).length = encodedLen s := by
  rw [httpUrlEncode, List.length_flatMap, encodedLen]
  congr 1
  refine List.map_congr_left fun c _ => ?_
  split
  · rfl
  · rfl

/-! ### Correctness -/

/-- The host and the port that are formatted are parsed back, whatever is formatted being the authority if it fits; a text
that is encoded is decoded back, and the buffer that is counted for it is filled exactly. -/
theorem hostPort_url_roundTrip (host s : List UInt8) (port : Nat) (old : Int) (outSize hostSize : Nat)
    (hhost : BareHost host) (hpos : 1 ≤ port) (hle : port ≤ 65535) (hsize : host.length < hostSize) :
    (∀ out, formatHostPortForUrl host port 0 outSize = some out →
      parseHostPort out hostSize (some old) = some (host, some (port : Int))) ∧
    ((urlHost host).length < 512 ∧ (authority host port).length < outSize →
      (formatHostPortForUrl host port 0 outSize).isSome) ∧
    httpUrlDecode (httpUrlEncode s) = some s ∧ (httpUrlEncode s).length = encodedLen s := by
  refine ⟨fun out hout => ?_, fun hfits => ?_, httpUrlDecode_httpUrlEncode s, length_httpUrlEncode s⟩
  · rw [formatHostPortForUrl_eq hhost] at hout
    split at hout
    · rw [← Option.some.inj hout]
      exact parseHostPort_authority hhost hsize hpos hle
    · exact absurd hout (by simp)
  · rw [formatHostPortForUrl_eq hhost, if_pos hfits]; rfl

theorem hostPort_url_roundTrip_ipv6 :
    (∀ out, formatHostPortForUrl (str "2001:db8::1") 8080 0 64 = some out →
      parseHostPort out 32 (some 0) = some (str "2001:db8::1", some 8080)) ∧
    ((urlHost (str "2001:db8::1")).length < 512 ∧ (authority (str "2001:db8::1") 8080).length < 64 →
      (formatHostPortForUrl (str "2001:db8::1") 8080 0 64).isSome) ∧
    httpUrlDecode (httpUrlEncode (str "a b%")) = some (str "a b%") ∧
    (httpUrlEncode (str "a b%")).length = encodedLen (str "a b%") :=
  hostPort_url_roundTrip (str "2001:db8::1") (str "a b%") 8080 0 64 32 ⟨by decide, by decide, by decide⟩ (by decide)
    (by decide) (by decide)

end Rtp2httpd
