import PageTree.Text.Lowercase

/-!
# Media types

The media type of an attachment follows from its name. The extension decides: what follows the last dot of
the name, when something other than dots comes before it. Some extensions are short for two, the second
of which says how the file is compressed; one such suffix is dropped before the extension is looked up.

A name of the form `scheme:rest` is taken for a reference, so that only `rest` counts, and one of the scheme
`data` says its type itself.
-/

set_option autoImplicit false

namespace PageTree.MediaType

/-- The words of a line. -/
def texts (line : String) : List Text := Text.splitAll ' ' (text line)

/-- The media types with their extensions. -/
def table : List (Text × List Text) := [
  (text "application/javascript", texts "js mjs"),
  (text "application/json", texts "json"),
  (text "application/manifest+json", texts "webmanifest"),
  (text "application/msword", texts "doc dot wiz"),
  (text "application/n-quads", texts "nq"),
  (text "application/n-triples", texts "nt"),
  (text "application/octet-stream", texts "bin a dll exe o obj so"),
  (text "application/oda", texts "oda"),
  (text "application/pdf", texts "pdf"),
  (text "application/pkcs7-mime", texts "p7c"),
  (text "application/postscript", texts "ps ai eps"),
  (text "application/trig", texts "trig"),
  (text "application/vnd.apple.mpegurl", texts "m3u m3u8"),
  (text "application/vnd.ms-excel", texts "xls xlb"),
  (text "application/vnd.ms-powerpoint", texts "ppt pot ppa pps pwz"),
  (text "application/wasm", texts "wasm"),
  (text "application/x-bcpio", texts "bcpio"),
  (text "application/x-cpio", texts "cpio"),
  (text "application/x-csh", texts "csh"),
  (text "application/x-dvi", texts "dvi"),
  (text "application/x-gtar", texts "gtar"),
  (text "application/x-hdf", texts "hdf"),
  (text "application/x-hdf5", texts "h5"),
  (text "application/x-latex", texts "latex"),
  (text "application/x-mif", texts "mif"),
  (text "application/x-netcdf", texts "cdf nc"),
  (text "application/x-pkcs12", texts "p12 pfx"),
  (text "application/x-pn-realaudio", texts "ram"),
  (text "application/x-python-code", texts "pyc pyo"),
  (text "application/x-sh", texts "sh"),
  (text "application/x-shar", texts "shar"),
  (text "application/x-shockwave-flash", texts "swf"),
  (text "application/x-sv4cpio", texts "sv4cpio"),
  (text "application/x-sv4crc", texts "sv4crc"),
  (text "application/x-tar", texts "tar"),
  (text "application/x-tcl", texts "tcl"),
  (text "application/x-tex", texts "tex"),
  (text "application/x-texinfo", texts "texi texinfo"),
  (text "application/x-troff", texts "roff t tr"),
  (text "application/x-troff-man", texts "man"),
  (text "application/x-troff-me", texts "me"),
  (text "application/x-troff-ms", texts "ms"),
  (text "application/x-ustar", texts "ustar"),
  (text "application/x-wais-source", texts "src"),
  (text "application/xml", texts "xsl rdf wsdl xpdl"),
  (text "application/zip", texts "zip"),
  (text "audio/3gpp", texts "3gp 3gpp"),
  (text "audio/3gpp2", texts "3g2 3gpp2"),
  (text "audio/aac", texts "aac adts loas ass"),
  (text "audio/basic", texts "au snd"),
  (text "audio/mpeg", texts "mp3 mp2"),
  (text "audio/opus", texts "opus"),
  (text "audio/x-aiff", texts "aif aifc aiff"),
  (text "audio/x-pn-realaudio", texts "ra"),
  (text "audio/x-wav", texts "wav"),
  (text "image/avif", texts "avif"),
  (text "image/bmp", texts "bmp"),
  (text "image/gif", texts "gif"),
  (text "image/ief", texts "ief"),
  (text "image/jpeg", texts "jpg jpe jpeg"),
  (text "image/heic", texts "heic"),
  (text "image/heif", texts "heif"),
  (text "image/png", texts "png"),
  (text "image/svg+xml", texts "svg"),
  (text "image/tiff", texts "tiff tif"),
  (text "image/vnd.microsoft.icon", texts "ico"),
  (text "image/x-cmu-raster", texts "ras"),
  (text "image/x-portable-anymap", texts "pnm"),
  (text "image/x-portable-bitmap", texts "pbm"),
  (text "image/x-portable-graymap", texts "pgm"),
  (text "image/x-portable-pixmap", texts "ppm"),
  (text "image/x-rgb", texts "rgb"),
  (text "image/x-xbitmap", texts "xbm"),
  (text "image/x-xpixmap", texts "xpm"),
  (text "image/x-xwindowdump", texts "xwd"),
  (text "message/rfc822", texts "eml mht mhtml nws"),
  (text "text/css", texts "css"),
  (text "text/csv", texts "csv"),
  (text "text/html", texts "html htm"),
  (text "text/n3", texts "n3"),
  (text "text/plain", texts "txt bat c h ksh pl srt"),
  (text "text/richtext", texts "rtx"),
  (text "text/tab-separated-values", texts "tsv"),
  (text "text/vtt", texts "vtt"),
  (text "text/x-python", texts "py"),
  (text "text/x-setext", texts "etx"),
  (text "text/x-sgml", texts "sgm sgml"),
  (text "text/x-vcard", texts "vcf"),
  (text "text/xml", texts "xml"),
  (text "video/mp4", texts "mp4"),
  (text "video/mpeg", texts "mpeg m1v mpa mpe mpg"),
  (text "video/quicktime", texts "mov qt"),
  (text "video/webm", texts "webm"),
  (text "video/x-msvideo", texts "avi"),
  (text "video/x-sgi-movie", texts "movie")]

/-- The type of files of no known extension. -/
def general : Text := text "application/octet-stream"

/-- The extensions that stand for two. -/
def abbreviations : List (Text × Text) :=
  [(text "svgz", text ".svg.gz"), (text "tgz", text ".tar.gz"), (text "taz", text ".tar.gz"),
    (text "tz", text ".tar.gz"), (text "tbz2", text ".tar.bz2"), (text "txz", text ".tar.xz")]

/-- The extensions of compressed files, which are told apart by case. -/
def compressions : List Text := texts "gz Z bz2 xz br"

/-- A name without its extension, and the extension, if it has one. -/
def splitExtension (name : Text) : Text × Option Text :=
  match Text.cutLast '.' name with
  | (some front, tail) =>
    if front.all (· == CodePoint.ofChar '.') then (name, none) else (front, some tail)
  | (none, _) => (name, none)

/-- A name whose extension stands for two, with the two written out. -/
def expand (name : Text) : Text :=
  match splitExtension name with
  | (front, some extension) =>
    match abbreviations.find? (·.1 == Text.lower extension) with
    | some (_, long) => front ++ long
    | none => name
  | (_, none) => name

/-- A name without the extension that says how the file is compressed. -/
def dropCompression (name : Text) : Text :=
  match splitExtension name with
  | (front, some extension) => if compressions.contains extension then front else name
  | (_, none) => name

/-- The type that a name's extension stands for. -/
def ofExtension? (name : Text) : Option Text :=
  match (splitExtension (dropCompression (expand name))).2 with
  | some extension => (table.find? (·.2.contains (Text.lower extension))).map (·.1)
  | none => none

/-- The type that a reference of the scheme `data` states. -/
def ofData? (rest : Text) : Option Text :=
  match Text.cut ',' rest with
  | (head, some _) =>
    let stated := (Text.cut ';' head).1
    some (if stated.contains (CodePoint.ofChar '=') || !stated.contains (CodePoint.ofChar '/')
      then text "text/plain" else stated)
  | (_, none) => none

/-- The type that a name stands for. -/
def ofName? (name : Text) : Option Text :=
  match Text.cut ':' name with
  | (scheme, some rest) =>
    if scheme = [] then ofExtension? name
    else if Text.lower scheme = text "data" then ofData? rest
    else ofExtension? rest
  | (_, none) => ofExtension? name

/-- The media type of a file with a name. -/
def ofName (name : Text) : Text := (ofName? name).getD general

end PageTree.MediaType
