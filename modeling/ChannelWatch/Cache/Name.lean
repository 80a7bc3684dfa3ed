import ChannelWatch.Md5
import ChannelWatch.Text.Utf8
import ChannelWatch.Text.Search

/-!
# Names of cache files

A remote image is kept under the digest of its URL and an extension read off the URL's text. `ImageFormat.ofName?` is the
other direction: it recognises exactly the names that `fileName` can produce, and no temporary name.
-/

namespace ChannelWatch

/-- The image formats that the cache tells apart. -/
inductive ImageFormat
  | png
  | webp
  | gif
  | jpeg
  deriving DecidableEq

namespace ImageFormat

/-- The extension of a format's files, with its point. -/
def extension : ImageFormat → String
  | png => ".png"
  | webp => ".webp"
  | gif => ".gif"
  | jpeg => ".jpg"

/-- The media type of a format. -/
def mediaType : ImageFormat → String
  | png => "image/png"
  | webp => "image/webp"
  | gif => "image/gif"
  | jpeg => "image/jpeg"

/-- The formats whose extension is looked for in a URL, in this order. -/
def known : List ImageFormat :=
  [png, webp, gif]

/-- The format of the image behind a URL: the first known one whose extension occurs anywhere in it, else JPEG. -/
def ofUrl (url : String) : ImageFormat :=
  (known.find? fun f => Text.contains f.extension.toList url.toList).getD jpeg

/-- The format whose extension a text is. -/
def ofExtension? (text : List Char) : Option ImageFormat :=
  (jpeg :: known).find? fun f => f.extension.toList = text

/-- The format of a cache file, told by a name of thirty-two lowercase hexadecimal digits and an extension. -/
def ofName? (name : String) : Option ImageFormat :=
  let digits := name.toList.take 32
  if digits.length = 32 ∧ digits.all Hex.isLower then ofExtension? (name.toList.drop 32) else none

end ImageFormat

namespace Cache

/-- The name of the file that holds the image behind a URL. -/
def fileName (url : String) : String :=
  String.ofList (Md5.hexDigest (Utf8.ofString url) ++ (ImageFormat.ofUrl url).extension.toList)

/-- The text is a name that `fileName` could have given. -/
def isFileName (name : String) : Bool :=
  (ImageFormat.ofName? name).isSome

/-- What a download's file is called until it is complete: the name of the finished file and this. -/
def tempSuffix : String :=
  ".tmp"

/-- The name that a download writes to before its file is complete. -/
def tempName (name : String) : String :=
  name ++ tempSuffix

end Cache

end ChannelWatch
