import CatalogSync.Text.Affix

namespace CatalogSync.MediaType

/-- The last component of a path, without the slashes and single dots that end it. There is none in
a path that ends in two dots or has no component at all. -/
def fileName? (path : List Char) : Option (List Char) :=
  match (Text.splitOn '/' path).reverse.dropWhile fun part => part = [] ∨ part = ['.'] with
  | part :: _ => if part = ['.', '.'] then none else some part
  | [] => none

/-- What follows the last dot of a file name, unless that dot is its first character. -/
def extension? (name : List Char) : Option (List Char) :=
  let ending := name.reverse.takeWhile (· ≠ '.')
  let stem := name.reverse.drop (ending.length + 1)
  if stem.isEmpty then none else some ending.reverse

def ofExtension (extension : String) : String :=
  match extension with
  | "txt" | "log" => "text/plain"
  | "csv" => "text/csv"
  | "md" => "text/markdown"
  | "html" | "htm" => "text/html"
  | "json" => "application/json"
  | "geojson" => "application/geo+json"
  | "xml" => "application/xml"
  | "pdf" => "application/pdf"
  | "zip" => "application/zip"
  | "png" => "image/png"
  | "jpg" | "jpeg" => "image/jpeg"
  | "gif" => "image/gif"
  | "tif" | "tiff" => "image/tiff"
  | _ => "application/octet-stream"

/-- The media type of a file by its name; the case of ASCII letters does not matter. -/
def guess (name : String) : String :=
  let extension := (fileName? name.toList).bind extension?
  ofExtension (String.ofList ((extension.getD []).map Char.toLower))

end CatalogSync.MediaType
