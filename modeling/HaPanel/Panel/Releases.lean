import HaPanel.Panel.Json
import HaPanel.Panel.Ota

/-!
# The assets of a release

`check_github_release` looks for the binary in the description of the latest release.  It does not
parse the description: it searches for `"name":"ha_panel"`, and from there on for the next size and
the next URL.  If there is no such asset, it takes the first size and the first URL that it finds.

The description is cut at its quotation marks into chunks, so that the searches are searches for
chunks (`find_quoted_chunks`).  The names, sizes and URLs are where GitHub prints them, and the
chunks between them can be anything that the searches do not stop at.
-/

namespace HaPanel

namespace Panel

open Text

/-! ### The function -/

/-- A text that is printed between quotation marks as it is. -/
def IsVerbatim (s : Bytes) : Prop := ∀ c ∈ s, escapeByte c = [c]

/-- None of the chunks is the key `name` of a member, that is, followed by a colon. -/
def NoName (cs : List Bytes) : Prop :=
  cs.IsChain fun c d => c = str "name" → d.head? ≠ some (byte ':')

/-- An asset, with the chunks of its other members. -/
structure ReleaseAsset where
  name : Bytes
  size : AssetSize
  url : Bytes
  /-- Between the name and the size. -/
  toSize : List Bytes
  /-- After the size and its comma, up to the next quotation mark. -/
  afterSize : Bytes
  /-- From there to the URL. -/
  toUrl : List Bytes
  /-- After the URL, up to the next name. -/
  rest : List Bytes
  plain : ∀ c ∈ name :: url :: afterSize :: (toSize ++ toUrl ++ rest), byte '"' ∉ c
  url_verbatim : IsVerbatim url
  url_ne_nil : url ≠ []
  noName_toSize : NoName (name :: toSize)
  noName_toUrl : NoName toUrl
  noName_rest : NoName (url :: rest)
  size_notMem : str "size" ∉ toSize
  url_notMem : str "browser_download_url" ∉ toSize ++ toUrl

/-- What stands between a key and a string, with and without blank. -/
def colon (spaced : Bool) : Bytes := if spaced then str ": " else str ":"

/-- The chunk with the size. -/
def ReleaseAsset.sizeChunk (spaced : Bool) (a : ReleaseAsset) : Bytes :=
  colon spaced ++ (decimal a.size ++ byte ',' :: a.afterSize)

def ReleaseAsset.chunks (spaced : Bool) (a : ReleaseAsset) : List Bytes :=
  str "name" :: colon spaced :: a.name :: (a.toSize ++
    str "size" :: a.sizeChunk spaced :: (a.toUrl ++
      str "browser_download_url" :: colon spaced :: a.url :: a.rest))

/-- The description of a release: its tag, its name, and its assets. -/
structure ReleaseDocument where
  spaced : Bool
  tagName : Bytes
  name : Bytes
  assets : List ReleaseAsset
  opening : Bytes
  toTag : List Bytes
  /-- Between the tag and the name. -/
  toName : List Bytes
  /-- Between the name of the release and that of the first asset. -/
  toAssets : List Bytes
  closing : Bytes
  plain : ∀ c ∈ opening :: tagName :: name :: closing :: (toTag ++ toName ++ toAssets), byte '"' ∉ c
  tag_verbatim : IsVerbatim tagName
  tag_ne_nil : tagName ≠ []
  noName_toTag : NoName toTag
  noName_toName : NoName (tagName :: toName)
  noName_toAssets : NoName (name :: toAssets)
  tag_notMem : str "tag_name" ∉ toTag

namespace ReleaseDocument

def chunks (d : ReleaseDocument) : List Bytes :=
  d.toTag ++ str "tag_name" :: colon d.spaced :: d.tagName :: (d.toName ++
    str "name" :: colon d.spaced :: d.name :: (d.toAssets ++
      d.assets.flatMap (ReleaseAsset.chunks d.spaced)))

def text (d : ReleaseDocument) : Bytes :=
  d.opening ++ (quoted (byte '"') d.chunks ++ byte '"' :: d.closing)

end ReleaseDocument

/-! ### Searching for a name -/

section

variable {cs ds : List Bytes} {v : Bytes}

theorem quote_notMem_colon (spaced : Bool) : byte '"' ∉ colon spaced := by
  cases spaced <;> decide

theorem NoName.cons {c : Bytes} (hc : c ≠ str "name") (h : NoName cs) : NoName (c :: cs) := by
  cases cs with
  | nil => exact List.IsChain.singleton _
  | cons d cs => exact List.isChain_cons_cons.2 ⟨fun heq => absurd heq hc, h⟩

end

/-! ### Reading a value -/

section

variable {c e key v : Bytes} {pre rest : List Bytes} (hc : byte '"' ∉ c) (he : byte '"' ∉ e)
  (hkey : byte '"' ∉ key) (hpre : ∀ x ∈ pre, byte '"' ∉ x) (hfirst : key ∉ pre)

include hc he hkey hpre hfirst

variable (hcolon : byte ':' ∉ key)

include hcolon

end

theorem ReleaseAsset.quote_notMem_chunks (a : ReleaseAsset) (spaced : Bool) :
    ∀ x ∈ a.chunks spaced, byte '"' ∉ x := by
  have hkeys : ∀ key ∈ [str "name", str "size", str "browser_download_url"], byte '"' ∉ key := by
    decide +kernel
  have hnumber : byte '"' ∉ decimal a.size := notMem_decimal (by decide) a.size
  have hplain := a.plain
  have hcolon := quote_notMem_colon spaced
  simp only [List.forall_mem_cons, List.forall_mem_append] at hkeys hplain
  obtain ⟨hname, hurl, hafter, ⟨hsize, htoUrl⟩, hrest⟩ := hplain
  simp only [ReleaseAsset.chunks, List.forall_mem_cons, List.forall_mem_append]
  refine ⟨hkeys.1, hcolon, hname, hsize, hkeys.2.1, ?_, htoUrl, hkeys.2.2.1, hcolon, hurl, hrest⟩
  simp [ReleaseAsset.sizeChunk, hcolon, hnumber, hafter, (by decide : byte '"' ≠ byte ',')]

namespace ReleaseAsset

variable (a : ReleaseAsset) (spaced : Bool)

section

variable {c e s : Bytes} {pre rest : List Bytes} (hc : byte '"' ∉ c) (he : byte '"' ∉ e)
  (hpre : ∀ x ∈ pre, byte '"' ∉ x) (hrest : ∀ x ∈ rest, byte '"' ∉ x)
  (hs : s = c ++ (quoted (byte '"') (pre ++ (a.chunks spaced ++ rest)) ++ byte '"' :: e))

include hc he hpre hrest hs

end

end ReleaseAsset

/-! ### The whole description -/

theorem quote_notMem_flatMap_chunks (assets : List ReleaseAsset) (spaced : Bool) :
    ∀ x ∈ assets.flatMap (ReleaseAsset.chunks spaced), byte '"' ∉ x := by
  intro x hx
  obtain ⟨a, -, hx⟩ := List.mem_flatMap.1 hx
  exact a.quote_notMem_chunks spaced x hx

namespace ReleaseDocument

variable (d : ReleaseDocument)

theorem quote_notMem_chunks : ∀ x ∈ d.chunks, byte '"' ∉ x := by
  have hkeys : ∀ key ∈ [str "tag_name", str "name"], byte '"' ∉ key := by decide +kernel
  have hplain := d.plain
  have hcolon := quote_notMem_colon d.spaced
  have hassets := quote_notMem_flatMap_chunks d.assets d.spaced
  simp only [List.forall_mem_cons, List.forall_mem_append] at hkeys hplain
  obtain ⟨-, htag, hname, -, ⟨htoTag, htoName⟩, htoAssets⟩ := hplain
  simp only [chunks, List.forall_mem_cons, List.forall_mem_append]
  exact ⟨htoTag, hkeys.1, hcolon, htag, htoName, hkeys.2.1, hcolon, hname, htoAssets, hassets⟩

section

variable {v : Bytes} (hv : byte '"' ∉ v) (hname : d.name ≠ v)

include hv hname

end

end ReleaseDocument

end Panel

end HaPanel
