import Coppice.Std.Text

/-!
# Content types

The types a record or a link can have, their MIME texts and their file extensions.
-/

namespace Coppice.Kindle

open Coppice.Std

inductive ContentType where
  | xhtml | xml | html | pdf | epubZip | mobi | azw3 | zip | comicZip | rar | comicRar | avif | heif
  | png | jpeg | jpegXl | webp | gif | txt | m4b | m4a | mp3 | opus | ogg | flac | unknown
deriving DecidableEq, Repr

namespace ContentType

/-- `Display`. -/
def mimeType : ContentType → String
  | xhtml => "application/xhtml+xml"
  | xml => "application/xml"
  | html => "text/html"
  | pdf => "application/pdf"
  | epubZip => "application/epub+zip"
  | mobi => "application/x-mobipocket-ebook"
  | azw3 => "application/vnd.amazon.mobi8-ebook"
  | zip => "application/zip"
  | comicZip => "application/vnd.comicbook+zip"
  | rar => "application/vnd.rar"
  | comicRar => "application/vnd.comicbook-rar"
  | avif => "image/avif"
  | heif => "image/heif"
  | png => "image/png"
  | jpeg => "image/jpeg"
  | jpegXl => "image/jxl"
  | webp => "image/webp"
  | gif => "image/gif"
  | txt => "text/plain"
  | m4b => "audio/mp4"
  | m4a => "audio/mp4"
  | mp3 => "audio/mpeg"
  | opus => "audio/opus"
  | ogg => "audio/ogg"
  | flac => "audio/flac"
  | unknown => "unknown"

def extension : ContentType → String
  | xhtml => "xhtml"
  | xml => "xml"
  | html => "html"
  | pdf => "pdf"
  | epubZip => "epub"
  | mobi => "mobi"
  | azw3 => "azw3"
  | zip => "zip"
  | comicZip => "cbz"
  | rar => "rar"
  | comicRar => "cbr"
  | heif => "heif"
  | png => "png"
  | jpeg => "jpg"
  | jpegXl => "jxl"
  | webp => "webp"
  | avif => "avif"
  | gif => "gif"
  | txt => "txt"
  | m4b => "m4b"
  | m4a => "m4a"
  | mp3 => "mp3"
  | opus => "opus"
  | ogg => "ogg"
  | flac => "flac"
  | unknown => ""

def isImage (type : ContentType) : Bool := startsWith "image" type.mimeType

/-- `str::to_lowercase`, as far as it can yield one of the texts below: of the letters outside
ASCII only the Kelvin sign has a lower case inside it. -/
def lowerChar (c : Char) : Char := if c = '\u212A' then 'k' else c.toLower

/-- `ContentType::from`, on MIME texts in any case. There is none for plain text. -/
def fromMime (text : List Char) : ContentType :=
  match String.ofList (text.map lowerChar) with
  | "application/xhtml+xml" => xhtml
  | "application/xml" => xml
  | "text/html" => html
  | "application/pdf" => pdf
  | "application/epub+zip" => epubZip
  | "application/x-mobipocket-ebook" => mobi
  | "application/vnd.amazon.ebook" => mobi
  | "application/vnd.amazon.mobi8-ebook" => azw3
  | "application/zip" => zip
  | "application/vnd.comicbook+zip" => comicZip
  | "application/vnd.rar" => rar
  | "application/vnd.comicbook-rar" => comicRar
  | "image/heif" => heif
  | "image/png" => png
  | "image/jpeg" => jpeg
  | "image/jxl" => jpegXl
  | "image/webp" => webp
  | "image/avif" => avif
  | "image/gif" => gif
  | "audio/mpeg" => mp3
  | "audio/mp3" => mp3
  | "audio/mp4" => m4a
  | "audio/m4a" => m4a
  | "audio/x-m4a" => m4a
  | "audio/opus" => opus
  | "audio/ogg" => ogg
  | "application/ogg" => ogg
  | "audio/flac" => flac
  | "audio/x-flac" => flac
  | _ => unknown

/-- `ContentType::from_bytes`, with the MIME type an inspection of the bytes infers. -/
def fromBytes (infer : List UInt8 → Option String) (bytes : List UInt8) : ContentType :=
  match infer bytes with
  | some mime => fromMime mime.toList
  | none => unknown

/-- The types whose flows are named as markup. -/
def isMarkup : ContentType → Bool
  | xhtml | xml | html => true
  | _ => false

theorem hash_notMem_extension (type : ContentType) : '#' ∉ type.extension.toList := by
  cases type <;> decide

theorem dot_notMem_extension (type : ContentType) : '.' ∉ type.extension.toList := by
  cases type <;> decide

/-- Among images, the extension `jpg` is that of a JPEG image. -/
theorem extension_eq_jpg {type : ContentType} : type.extension = "jpg" ↔ type = jpeg := by
  cases type <;> decide

end ContentType

end Coppice.Kindle
