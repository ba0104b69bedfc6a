import HaPanel.Assist.Child
import HaPanel.Panel.Config

/-!
# The two parsers of the Home Assistant address

The live connection takes host, port and path from `parse_ha_url_components`, the Assist pipeline
from `parse_ha_url`.  They have the same rules for slashes and colons (`parseHaUrl_eq`), but
different defaults for the port (`default_port_differs`), and only the first strips blanks around
the host.

`parsers_agree_iff` : on an address that `parse_ha_url` accepts they agree exactly if it names a
port and has no blanks around the host.
-/

namespace HaPanel

namespace Panel

open Text

open Assist (ParsedUrl isTrimmed parseHaUrl)

deriving instance DecidableEq for Assist.ParsedUrl

/-- The address without the low bytes at both ends. -/
def trimLow (s : Bytes) : Bytes := (s.rdropWhile isTrimmed).dropWhile isTrimmed

/-- The text before the first slash. -/
def urlAuthority (url : Bytes) : Bytes := url.takeWhile (· ≠ byte '/')

/-- The text from the first slash on, without the slashes at its end. -/
def urlPath (url : Bytes) : Bytes := (url.dropWhile (· ≠ byte '/')).rdropWhile (· = byte '/')

/-- The text before the last colon, or all of it if there is none. -/
def authorityHost (authority : Bytes) : Bytes :=
  if byte ':' ∈ authority then (authority.rdropWhile (· ≠ byte ':')).dropLast else authority

/-- The number after the last colon, or `fallback` if there is none. -/
def authorityPort (authority : Bytes) (fallback : ℤ) : ℤ :=
  if byte ':' ∈ authority then atoi (authority.rtakeWhile (· ≠ byte ':')) else fallback

/-- The last line of both parsers. -/
def checkUrl (p : ParsedUrl) : Option ParsedUrl :=
  if p.host ≠ [] ∧ 0 < p.port ∧ p.port ≤ 65535 then some p else none

def parseHaUrlComponents (haUrl : Bytes) : Option ParsedUrl :=
  let url := trimLow haUrl
  if url = [] then none
  else
    let url := if (str "https://").isPrefixOf url then url.drop 8
      else if (str "http://").isPrefixOf url then url.drop 7 else url
    let authority := urlAuthority url
    checkUrl ⟨trimLow (authorityHost authority), urlPath url, authorityPort authority 8123⟩

/-- The authority of an address with the scheme `https`. -/
def httpsAuthority (input : Bytes) : Bytes := urlAuthority ((trimLow input).drop 8)

theorem checkUrl_eq_some {p q : ParsedUrl} :
    checkUrl p = some q ↔ p = q ∧ p.host ≠ [] ∧ 0 < p.port ∧ p.port ≤ 65535 := by
  unfold checkUrl
  split_ifs with h
  · simp [h]
  · simp only [false_iff]
    tauto

/-- The parser of the pipeline, in the words of the other one. -/
theorem parseHaUrl_eq (input : Bytes) :
    parseHaUrl input = if (str "https://").isPrefixOf (trimLow input) then
      checkUrl ⟨authorityHost (httpsAuthority input), urlPath ((trimLow input).drop 8),
        authorityPort (httpsAuthority input) 443⟩
    else none := by
  have hcolon (authority : Bytes) :
      authority.rdropWhile (· ≠ byte ':') = [] ↔ byte ':' ∉ authority := by
    simp only [List.rdropWhile_eq_nil_iff, ne_eq, decide_not, Bool.not_eq_eq_eq_not, Bool.not_true,
      decide_eq_false_iff_not]
    exact ⟨fun h hmem => h _ hmem rfl, fun h c hc heq => h (heq ▸ hc)⟩
  unfold parseHaUrl
  simp only [hcolon, ite_not]
  cases hscheme : (str "https://").isPrefixOf (trimLow input) with
  | false =>
    rw [trimLow] at hscheme
    simp [hscheme]
  | true =>
    rw [trimLow] at hscheme
    simp only [hscheme, Bool.not_true, Bool.false_eq_true, ↓reduceIte]
    rfl

/-- An address that `parse_ha_url` accepts, read by `parse_ha_url_components`. -/
theorem parseHaUrlComponents_of_https {input : Bytes} {p : ParsedUrl}
    (h : parseHaUrl input = some p) :
    parseHaUrlComponents input = checkUrl
      ⟨trimLow (authorityHost (httpsAuthority input)), p.basePath,
        authorityPort (httpsAuthority input) 8123⟩ := by
  rw [parseHaUrl_eq] at h
  split_ifs at h with hscheme
  obtain ⟨rfl, -⟩ := checkUrl_eq_some.mp h
  have hne : trimLow input ≠ [] := by
    intro hnil
    rw [hnil] at hscheme
    exact absurd hscheme (by decide)
  simp only [parseHaUrlComponents, if_neg hne, hscheme, if_true]
  rfl

/-- **The two parsers agree** on an address exactly if it names a port and has no blanks around the
host. -/
theorem parsers_agree_iff {input : Bytes} {p : ParsedUrl} (h : parseHaUrl input = some p) :
    parseHaUrlComponents input = some p ↔
      byte ':' ∈ httpsAuthority input ∧
        trimLow (authorityHost (httpsAuthority input)) = authorityHost (httpsAuthority input) := by
  rw [parseHaUrlComponents_of_https h, checkUrl_eq_some]
  rw [parseHaUrl_eq] at h
  split_ifs at h with hscheme
  obtain ⟨rfl, hhost, hpos, hle⟩ := checkUrl_eq_some.mp h
  simp only [ParsedUrl.mk.injEq, true_and]
  by_cases hcolon : byte ':' ∈ httpsAuthority input
  · have hport (fallback : ℤ) : authorityPort (httpsAuthority input) fallback =
        authorityPort (httpsAuthority input) 443 := by
      rw [authorityPort, if_pos hcolon, authorityPort, if_pos hcolon]
    simp only [hport 8123, hcolon, true_and, and_true]
    constructor
    · exact And.left
    · intro htrim
      refine ⟨htrim, ?_, hpos, hle⟩
      rw [htrim]
      exact hhost
  · -- without a port the defaults are 8123 and 443
    simp [authorityPort, hcolon]

/-- An address with a port, and a path. -/
def addressWithPort : Bytes := str "https://ha.local:8123/lovelace/"

theorem parsers_agree_with_port :
    parseHaUrlComponents addressWithPort = some ⟨str "ha.local", str "/lovelace", 8123⟩ := by
  have h : parseHaUrl addressWithPort = some ⟨str "ha.local", str "/lovelace", 8123⟩ := by
    decide +kernel
  exact (parsers_agree_iff h).mpr (by decide +kernel)

/-- **The default ports differ**: the pipeline connects to port 443, the live connection to 8123. -/
theorem default_port_differs :
    parseHaUrl (str "https://ha.local") = some ⟨str "ha.local", [], 443⟩ ∧
      parseHaUrlComponents (str "https://ha.local") = some ⟨str "ha.local", [], 8123⟩ := by
  decide +kernel

end Panel

end HaPanel
