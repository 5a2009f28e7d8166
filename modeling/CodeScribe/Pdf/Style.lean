import CodeScribe.Text.Chars

/-!
# The style of printed pages
-/

namespace CodeScribe.Pdf

open Text

/-- The style, as it stands in the head of a page. -/
def style : String :=
  join "\n" [
    "",
    "        <style>",
    "            body \x7b font-family: Arial, sans-serif; font-size: 14px; line-height: 1.6; color: #172B4D; \x7d",
    "            h1 \x7b font-size: 32px; font-weight: 600; color: #172B4D; margin-top: 0; margin-bottom: 16px; padding-bottom: 8px; border-bottom: 2px solid #DFE1E6; \x7d",
    "            h2 \x7b font-size: 24px; font-weight: 600; color: #172B4D; margin-top: 32px; margin-bottom: 16px; padding-bottom: 8px; border-bottom: 1px solid #DFE1E6; \x7d",
    "            h3 \x7b font-size: 20px; font-weight: 600; color: #172B4D; margin-top: 24px; margin-bottom: 12px; \x7d",
    "            h4 \x7b font-size: 16px; font-weight: 600; color: #172B4D; margin-top: 20px; margin-bottom: 10px; \x7d",
    "            code \x7b background-color: #F4F5F7; border: 1px solid #DFE1E6; border-radius: 3px; padding: 2px 6px; font-family: monospace; font-size: 13px; \x7d",
    "            pre \x7b background-color: #F4F5F7; border: 1px solid #DFE1E6; border-radius: 3px; padding: 12px; margin: 16px 0; font-family: monospace; font-size: 13px; \x7d",
    "            table \x7b border-collapse: collapse; width: 100%; margin: 16px 0; border: 1px solid #DFE1E6; \x7d",
    "            th \x7b background-color: #F4F5F7; border: 1px solid #DFE1E6; padding: 8px 12px; font-weight: 600; \x7d",
    "            td \x7b border: 1px solid #DFE1E6; padding: 8px 12px; \x7d",
    "            .mermaid-diagram \x7b width: 100%; max-width: 100%; margin: 16px 0; \x7d",
    "            .mermaid-diagram img \x7b display: block; max-width: 100%; height: auto; \x7d",
    "        </style>",
    "        "]

/-- A page with the style in its head; a page without a head gets one. -/
def withStyle (page : String) : String :=
  if contains page "<head>" then replace page "<head>" ("<head>" ++ style)
  else "<head>" ++ style ++ "</head>" ++ page

end CodeScribe.Pdf
